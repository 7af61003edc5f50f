import BlockFeed.Config.Load
import BlockFeed.Proofs.Json.Members
import BlockFeed.Proofs.Text.Spelling

/-!
# Layers of a configuration

The settings that are loaded from a file that holds an object and from an environment, setting by
setting.

## Main definitions

* `Config.HoldsObject`: the bytes of a file are the text of an object with certain members.
* `Config.Unreadable`: a known key has a value that cannot be read as its setting.
* `Config.Filed`, `Config.Overridden`: the value of one setting in a file over its default, and in
  a variable over what is below.
* `Config.Layered`: the settings of a file and an environment.

## Main results

* `Config.ofLayer_eq_ok_iff`, `Config.ofLayer_eq_error`: what is read from a file.
* `Config.layered_iff`: the environment over what was read.
* `Config.load_layered`: what is loaded, and when it is refused for which reason.

## Design notes

There are three kinds of absence. A key that is missing or null leaves the default; a variable that
is unset, empty or unreadable leaves what is below; and a value that cannot be read leaves nothing
at all, even where a variable would have replaced it.
-/

namespace BlockFeed.Config

open Json (given?)

/-- The bytes are the text of an object with these members, in the order in which they are
written. -/
def HoldsObject (bytes : Bytes) (members : List (String × Json)) : Prop :=
  (Text.ofUtf8? bytes).isSome = true ∧
    ∃ written, Json.Written.read? bytes = some (.object written) ∧
      Json.membersOfWritten? 126 written = some members

/-- The known keys, and which values can be read under them. -/
def readers : List (String × (Json → Bool)) :=
  [("url", fun v => v.string?.isSome), ("mode", fun v => (mode? v).isSome),
    ("with_acknowledge", fun v => v.bool?.isSome),
    ("blocking_ack_on_error", fun v => v.bool?.isSome),
    ("retry_duration_secs", fun v => v.word?.isSome), ("max_message_size", fun v => v.word?.isSome)]

/-- A known key has a value, other than null, that cannot be read as its setting. -/
def Unreadable (members : List (String × Json)) : Prop :=
  ∃ key reads v, (key, reads) ∈ readers ∧ given? members key = some v ∧ reads v = false

/-- The value of a setting: what the file has under its key, else the default. -/
inductive Filed {α : Type} (members : List (String × Json)) (key : String)
    (read : Json → Option α) (default : α) : α → Prop where
  | given {v : Json} {a : α} : given? members key = some v → read v = some a →
      Filed members key read default a
  | absent : given? members key = none → Filed members key read default default

/-- The value of a setting: what a variable spells, if it is not empty and spells a value, else what
is below. -/
inductive Overridden {α : Type} (text? : Option String) (spells : String → α → Prop)
    (below : α → Prop) : α → Prop where
  | spelled {s : String} {a : α} : text? = some s → s ≠ "" → spells s a →
      Overridden text? spells below a
  | unspelled {a : α} : (∀ s b, text? = some s → s ≠ "" → ¬spells s b) → below a →
      Overridden text? spells below a

/-- A text is the name of a mode, in any case of its letters. -/
def SpellsMode (s : String) (m : Mode) : Prop := Text.lowerAscii s = m.name

/-- A text is one of the words for a truth value, in any case of its letters. -/
def SpellsBool (s : String) (b : Bool) : Prop :=
  Text.lowerAscii s ∈ if b then ["true", "1", "yes", "on"] else ["false", "0", "no", "off"]

/-- A text writes a number of seconds from one to an hour. -/
def SpellsRetry (s : String) (n : UInt64) : Prop := Text.Numeral s n.toNat ∧ 1 ≤ n ∧ n ≤ 3600

/-- The settings of a file and an environment, over the defaults. -/
structure Layered (members : List (String × Json)) (env : Environment) (c : Config) : Prop where
  url : Overridden (env "OUTPORT_URL") (fun s url => s = url)
    (Filed members "url" Json.string? ({} : Config).url) c.url
  mode : Overridden (env "OUTPORT_MODE") SpellsMode
    (Filed members "mode" mode? ({} : Config).mode) c.mode
  withAcknowledge : Overridden (env "OUTPORT_WITH_ACK") SpellsBool
    (Filed members "with_acknowledge" Json.bool? ({} : Config).withAcknowledge) c.withAcknowledge
  blockingAckOnError : Overridden (env "OUTPORT_BLOCKING_ACK_ON_ERROR") SpellsBool
    (Filed members "blocking_ack_on_error" Json.bool? ({} : Config).blockingAckOnError)
    c.blockingAckOnError
  retryDurationSecs : Overridden (env "OUTPORT_RETRY_SECS") SpellsRetry
    (Filed members "retry_duration_secs" Json.word? ({} : Config).retryDurationSecs)
    c.retryDurationSecs
  maxMessageSize : Filed members "max_message_size" Json.word? ({} : Config).maxMessageSize
    c.maxMessageSize

section Settings

variable {α : Type} {members : List (String × Json)} {key : String} {read : Json → Option α}
  {default : α}

theorem filed_iff {a : α} : Filed members key read default a ↔
    (given? members key).elim (some default) read = some a := by
  constructor
  · intro h
    cases h with
    | given hgiven hread => rw [hgiven]; exact hread
    | absent habsent => rw [habsent]; rfl
  · intro h
    cases hgiven : given? members key with
    | some v =>
      rw [hgiven] at h
      exact .given hgiven h
    | none =>
      rw [hgiven] at h
      obtain rfl := Option.some.inj h
      exact .absent hgiven

/-- A setting of a file over a default that can be read itself and is no object. -/
theorem setting?_merge_eq_some_iff {layer : List (String × Json)} {value : Json}
    (hlayer : layer.lookup key = some value) (hvalue : ∀ members, value ≠ .object members)
    (hread : read value = some default) {a : α} :
    setting? read default ((Json.mergeMembers layer (Entries.ofList members)).lookup key) = some a ↔
      Filed members key read default a := by
  rw [filed_iff, Json.lookup_merge_given, hlayer]
  refine Eq.congr_left ?_
  cases given? members key with
  | none => exact hread
  | some v =>
    have hover : Json.mergeOver (some value) v = v := Json.merge_of_ne_object hvalue v
    dsimp only
    rw [hover]
    rfl

theorem overridden_iff {text? : Option String} {spells : String → α → Prop}
    {below : α → Prop} {parse : String → Option α} {a : α}
    (hspells : ∀ s b, spells s b ↔ parse s = some b) :
    Overridden text? spells below a ↔
      ((text?.filter fun s => !s.isEmpty).bind parse).elim (below a) (a = ·) := by
  cases hparse : (text?.filter fun s => !s.isEmpty).bind parse with
  | some b =>
    obtain ⟨s, hs, hb⟩ := Option.bind_eq_some_iff.mp hparse
    obtain ⟨hset, hne⟩ := Option.filter_eq_some_iff.mp hs
    have hne : s ≠ "" := by simpa using hne
    constructor
    · intro h
      cases h with
      | spelled hset' _ hspelled =>
        obtain rfl := Option.some.inj (hset.symm.trans hset')
        exact Option.some.inj (((hspells _ _).mp hspelled).symm.trans hb)
      | unspelled hnone => exact absurd ((hspells s b).mpr hb) (hnone s b hset hne)
    · rintro rfl
      exact .spelled hset hne ((hspells s a).mpr hb)
  | none =>
    have hnone : ∀ s b, text? = some s → s ≠ "" → ¬spells s b := by
      rintro s b rfl hne hspelled
      have hs : (some s).filter (fun s => !s.isEmpty) = some s :=
        Option.filter_eq_some_iff.mpr ⟨rfl, by simpa using hne⟩
      rw [hs, Option.bind_some, (hspells s b).mp hspelled] at hparse
      cases hparse
    constructor
    · intro h
      cases h with
      | spelled hset hne hspelled => exact absurd hspelled (hnone _ _ hset hne)
      | unspelled _ hbelow => exact hbelow
    · exact .unspelled hnone

/-- A variable that spells nothing leaves the value below. -/
theorem overridden_iff_eq {spells : String → α → Prop} {below : α → Prop}
    {parse : String → Option α} {b : α} (hspells : ∀ s a, spells s a ↔ parse s = some a)
    (hbelow : ∀ a, below a ↔ a = b) (text? : Option String) (a : α) :
    Overridden text? spells below a ↔
      a = ((text?.filter fun s => !s.isEmpty).bind parse).getD b := by
  rw [overridden_iff hspells]
  cases (text?.filter fun s => !s.isEmpty).bind parse with
  | none => exact hbelow a
  | some a' => exact Iff.rfl

end Settings

theorem spellsMode_iff (s : String) (m : Mode) : SpellsMode s m ↔ Mode.parse? s = some m := by
  have hname : Mode.parse? s = some m ↔ Text.lower s = m.name := by
    rw [Mode.parse?, Mode.ofName?]
    cases m <;> grind [Mode.name]
  rw [hname, SpellsMode]
  cases m <;> rw [Text.lower_eq_iff (by decide) (by decide)]

theorem spellsBool_iff (s : String) (b : Bool) : SpellsBool s b ↔ Text.bool? s = some b := by
  have hwords : Text.bool? s = some b ↔
      Text.lower s ∈ if b then ["true", "1", "yes", "on"] else ["false", "0", "no", "off"] := by
    rw [Text.bool?]
    cases b <;> grind
  have hcase (w : String) (hk : 'k' ∉ w.toList) (hkelvin : '\u212a' ∉ w.toList) :=
    Text.lower_eq_iff (s := s) hk hkelvin
  rw [hwords, SpellsBool]
  cases b <;> simp only [Bool.false_eq_true, if_false, if_true, List.mem_cons, List.not_mem_nil,
    or_false] <;> simp (disch := decide) only [hcase]

theorem spellsRetry_iff (s : String) (n : UInt64) :
    SpellsRetry s n ↔ Text.inRange? retryBounds.1 retryBounds.2 s = some n :=
  Text.inRange?_eq_some_iff.symm

/-- A setting that is a number of 64 bits is read back as it is written. -/
theorem word?_toNat (n : UInt64) : Json.word? (.number (.integer n.toNat)) = some n := by
  have hbounds : (0 : Int) ≤ n.toNat ∧ (n.toNat : Int) < UInt64.size :=
    ⟨Int.natCast_nonneg _, Int.ofNat_lt.mpr n.toNat_lt⟩
  rw [Json.word?, if_pos hbounds]
  exact congrArg some (UInt64.ofNat_toNat)

section File

variable {members : List (String × Json)} {c : Config}

/-- The settings that a file gives, each over its default. -/
def FiledConfig (members : List (String × Json)) (c : Config) : Prop :=
  Filed members "url" Json.string? ({} : Config).url c.url ∧
    Filed members "mode" mode? ({} : Config).mode c.mode ∧
    Filed members "with_acknowledge" Json.bool? ({} : Config).withAcknowledge c.withAcknowledge ∧
    Filed members "blocking_ack_on_error" Json.bool? ({} : Config).blockingAckOnError
      c.blockingAckOnError ∧
    Filed members "retry_duration_secs" Json.word? ({} : Config).retryDurationSecs
      c.retryDurationSecs ∧
    Filed members "max_message_size" Json.word? ({} : Config).maxMessageSize c.maxMessageSize

/-- A setting of a file, read from the file laid over the defaults. -/
theorem setting?_layer {α : Type} (key : String) (read : Json → Option α) {value : Json}
    {default : α} (hvalue : ({} : Config).members.reverse.lookup key = some value)
    (hne : ∀ members, value ≠ .object members) (hread : read value = some default) (a : α) :
    setting? read default ((Json.mergeMembers (Entries.ofList ({} : Config).members)
        (Entries.ofList members)).lookup key) = some a ↔
      Filed members key read default a :=
  setting?_merge_eq_some_iff ((Entries.lookup_ofList key _).trans hvalue) hne hread

theorem merge_layer (members : List (String × Json)) :
    Json.merge (layer {}) (.object (Entries.ofList members)) =
      .object (Json.mergeMembers (Entries.ofList ({} : Config).members)
        (Entries.ofList members)) := by
  rw [layer, Json.merge]

theorem ofJson?_merge_eq_some_iff :
    ofJson? (Json.merge (layer {}) (.object (Entries.ofList members))) = some c ↔
      FiledConfig members c := by
  have hurl := @setting?_layer members String "url" Json.string? _ _ rfl nofun rfl c.url
  have hmode := @setting?_layer members Mode "mode" mode? _ _ rfl nofun rfl c.mode
  have hack := @setting?_layer members Bool "with_acknowledge" Json.bool? _ _ rfl nofun rfl
    c.withAcknowledge
  have hblocking := @setting?_layer members Bool "blocking_ack_on_error" Json.bool? _ _ rfl nofun
    rfl c.blockingAckOnError
  have hretry := @setting?_layer members UInt64 "retry_duration_secs" Json.word? _ _ rfl nofun
    (word?_toNat 5) c.retryDurationSecs
  have hsize := @setting?_layer members UInt64 "max_message_size" Json.word? _ _ rfl nofun
    (word?_toNat 16777216) c.maxMessageSize
  rw [FiledConfig, merge_layer, ← hurl, ← hmode, ← hack, ← hblocking, ← hretry, ← hsize]
  simp only [ofJson?, settings?, Option.bind_eq_bind, Option.bind_some, Option.bind_eq_some_iff,
    Option.pure_def, Option.some.injEq]
  constructor
  · rintro ⟨_, h₁, _, h₂, _, h₃, _, h₄, _, h₅, _, h₆, rfl⟩
    exact ⟨h₁, h₂, h₃, h₄, h₅, h₆⟩
  · rintro ⟨h₁, h₂, h₃, h₄, h₅, h₆⟩
    exact ⟨_, h₁, _, h₂, _, h₃, _, h₄, _, h₅, _, h₆, rfl⟩

/-- A setting has a value exactly if what the file has under its key can be read. -/
theorem exists_filed_iff {α : Type} {key : String} {read : Json → Option α} {default : α} :
    (∃ a, Filed members key read default a) ↔
      ∀ v, given? members key = some v → (read v).isSome = true := by
  simp only [filed_iff]
  cases given? members key <;> simp [Option.isSome_iff_exists]

/-- Either a known key has a value that cannot be read, or the file has settings. -/
theorem not_unreadable_iff : ¬Unreadable members ↔ ∃ c, FiledConfig members c := by
  have hreadable : ¬Unreadable members ↔
      ∀ e ∈ readers, ∀ v, given? members e.1 = some v → e.2 v = true := by
    rw [Unreadable]
    grind
  rw [hreadable]
  simp only [readers, List.forall_mem_cons]
  constructor
  · rintro ⟨h₁, h₂, h₃, h₄, h₅, h₆, -⟩
    obtain ⟨url, hurl⟩ := exists_filed_iff.mpr h₁
    obtain ⟨mode, hmode⟩ := exists_filed_iff.mpr h₂
    obtain ⟨ack, hack⟩ := exists_filed_iff.mpr h₃
    obtain ⟨blocking, hblocking⟩ := exists_filed_iff.mpr h₄
    obtain ⟨retry, hretry⟩ := exists_filed_iff.mpr h₅
    obtain ⟨size, hsize⟩ := exists_filed_iff.mpr h₆
    exact ⟨⟨url, mode, ack, blocking, retry, size⟩, hurl, hmode, hack, hblocking, hretry, hsize⟩
  · rintro ⟨c, hurl, hmode, hack, hblocking, hretry, hsize⟩
    exact ⟨exists_filed_iff.mp ⟨_, hurl⟩, exists_filed_iff.mp ⟨_, hmode⟩,
      exists_filed_iff.mp ⟨_, hack⟩, exists_filed_iff.mp ⟨_, hblocking⟩,
      exists_filed_iff.mp ⟨_, hretry⟩, exists_filed_iff.mp ⟨_, hsize⟩, fun _ h => nomatch h⟩

theorem ofLayer_eq_ok_iff :
    ofLayer (.object (Entries.ofList members)) = .ok c ↔ FiledConfig members c := by
  rw [← ofJson?_merge_eq_some_iff, ofLayer]
  cases ofJson? (Json.merge (layer {}) (.object (Entries.ofList members))) <;> simp

theorem ofLayer_eq_error (h : Unreadable members) :
    ofLayer (.object (Entries.ofList members)) = .error (.json .data) := by
  rw [ofLayer]
  cases hof : ofJson? (Json.merge (layer {}) (.object (Entries.ofList members))) with
  | none => rfl
  | some c =>
    exact absurd h (not_unreadable_iff.mpr ⟨c, ofJson?_merge_eq_some_iff.mp hof⟩)

/-- The environment leaves exactly one value to each setting. -/
theorem layered_iff (h : FiledConfig members c) (env : Environment) {c' : Config} :
    Layered members env c' ↔ c' = c.override env := by
  have hfiled {α : Type} {key : String} {read : Json → Option α} {default b : α}
      (hb : Filed members key read default b) (a : α) :
      Filed members key read default a ↔ a = b := by
    rw [filed_iff, filed_iff.mp hb, Option.some.injEq, eq_comm]
  obtain ⟨hurl, hmode, hack, hblocking, hretry, hsize⟩ := h
  have hspells (s url : String) : s = url ↔ some s = some url := Option.some_inj.symm
  have hurl := overridden_iff_eq hspells (hfiled hurl) (env "OUTPORT_URL") c'.url
  have hmode := overridden_iff_eq spellsMode_iff (hfiled hmode) (env "OUTPORT_MODE") c'.mode
  have hack := overridden_iff_eq spellsBool_iff (hfiled hack) (env "OUTPORT_WITH_ACK")
    c'.withAcknowledge
  have hblocking := overridden_iff_eq spellsBool_iff (hfiled hblocking)
    (env "OUTPORT_BLOCKING_ACK_ON_ERROR") c'.blockingAckOnError
  have hretry := overridden_iff_eq spellsRetry_iff (hfiled hretry) (env "OUTPORT_RETRY_SECS")
    c'.retryDurationSecs
  have hsize := hfiled hsize c'.maxMessageSize
  rw [Option.bind_fun_some] at hurl
  constructor
  · rintro ⟨h₁, h₂, h₃, h₄, h₅, h₆⟩
    rw [override, Environment.get?, Environment.get?, Environment.get?, Environment.get?,
      Environment.get?, ← hurl.mp h₁, ← hmode.mp h₂, ← hack.mp h₃, ← hblocking.mp h₄,
      ← hretry.mp h₅, ← hsize.mp h₆]
  · rintro rfl
    exact ⟨hurl.mpr rfl, hmode.mpr rfl, hack.mpr rfl, hblocking.mpr rfl, hretry.mpr rfl,
      hsize.mpr rfl⟩

end File

theorem HoldsObject.ofFile {bytes : Bytes} {members : List (String × Json)}
    (h : HoldsObject bytes members) :
    ofFile (.contents bytes) = ofLayer (.object (Entries.ofList members)) := by
  obtain ⟨htext, written, hread, hmembers⟩ := h
  have hvalue : Json.read? bytes = some (.object (Entries.ofList members)) := by
    rw [Json.read?, hread, Option.bind_some, Json.ofWritten?, hmembers, Option.map_some]
  rw [Config.ofFile, Option.isNone_eq_false_iff.mpr htext, hvalue]
  rfl

/-- What is answered for settings: a blank url is refused first, and then a retry interval of
zero. -/
def answer (c : Config) : Except ConfigError Config :=
  if (Text.trim c.url).isEmpty then .error .emptyUrl
  else if c.retryDurationSecs = 0 then .error .zeroRetryDuration
  else .ok c

/-- What the settings of a file come to: they are refused exactly if one that is known cannot be
read, whatever the environment says; the environment goes over them setting by setting, and what
results is validated. Only the values under the known keys matter. -/
structure Loads (bytes : Bytes) (members : List (String × Json)) : Prop where
  refused (env : Environment) :
    (∃ fault, load (some (.contents bytes)) env = .error (.json fault)) ↔ Unreadable members
  answered (env : Environment) : ¬Unreadable members → ∃ c,
    (∀ c', Layered members env c' ↔ c' = c) ∧ load (some (.contents bytes)) env = answer c
  unknown (env : Environment) (bytes' : Bytes) (members' : List (String × Json)) :
    HoldsObject bytes' members' →
    (∀ e ∈ readers, given? members' e.1 = given? members e.1) →
      load (some (.contents bytes')) env = load (some (.contents bytes)) env

section Load

variable {bytes : Bytes} {members : List (String × Json)} {c : Config} {env : Environment}

theorem load_of_unreadable (h : HoldsObject bytes members) (hunreadable : Unreadable members) :
    load (some (.contents bytes)) env = .error (.json .data) := by
  simp only [load, h.ofFile, ofLayer_eq_error hunreadable]
  rfl

theorem load_of_filed (h : HoldsObject bytes members) (hfiled : FiledConfig members c) :
    load (some (.contents bytes)) env = answer (c.override env) := by
  have hfile : ofFile (.contents bytes) = .ok c := h.ofFile.trans (ofLayer_eq_ok_iff.mpr hfiled)
  simp only [load, hfile, bind, Except.bind, validate, answer]
  split_ifs <;> rfl

theorem answer_ne_json (c : Config) (fault : JsonFault) : answer c ≠ .error (.json fault) := by
  rw [answer]
  split
  · nofun
  · split <;> nofun

/-- Files that give the same values to the known keys have the same settings. -/
theorem filedConfig_congr {members' : List (String × Json)}
    (h : ∀ e ∈ readers, given? members' e.1 = given? members e.1) :
    FiledConfig members' c ↔ FiledConfig members c := by
  simp only [readers, List.forall_mem_cons] at h
  obtain ⟨hurl, hmode, hack, hblocking, hretry, hsize, -⟩ := h
  simp only [FiledConfig, filed_iff, hurl, hmode, hack, hblocking, hretry, hsize]

end Load

/-- What is loaded from a file that holds an object. -/
theorem load_layered (bytes : Bytes) (members : List (String × Json))
    (h : HoldsObject bytes members) : Loads bytes members where
  refused env := by
    refine ⟨fun ⟨fault, hload⟩ => ?_, fun hunreadable => ⟨_, load_of_unreadable h hunreadable⟩⟩
    by_contra hreadable
    obtain ⟨c, hfiled⟩ := not_unreadable_iff.mp hreadable
    exact answer_ne_json _ fault ((load_of_filed h hfiled).symm.trans hload)
  answered env hreadable := by
    obtain ⟨c, hfiled⟩ := not_unreadable_iff.mp hreadable
    exact ⟨c.override env, fun c' => layered_iff hfiled env, load_of_filed h hfiled⟩
  unknown env bytes' members' h' hgiven := by
    by_cases hunreadable : Unreadable members
    · have hunreadable' : Unreadable members' := by
        by_contra hreadable
        obtain ⟨c, hfiled⟩ := not_unreadable_iff.mp hreadable
        exact not_unreadable_iff.mpr ⟨c, (filedConfig_congr hgiven).mp hfiled⟩ hunreadable
      rw [load_of_unreadable h' hunreadable', load_of_unreadable h hunreadable]
    · obtain ⟨c, hfiled⟩ := not_unreadable_iff.mp hunreadable
      rw [load_of_filed h' ((filedConfig_congr hgiven).mpr hfiled), load_of_filed h hfiled]

/-- A file with a key that is given twice, one that is null and one that is not known. -/
def sampleFile : Bytes :=
  Text.utf8 ("\x7b\"url\":\"a\",\"mode\":null,\"retry_duration_secs\":0," ++
    "\"x\":\x7b\"url\":null\x7d,\"url\":\" h \"\x7d")

def sampleMembers : List (String × Json) :=
  [("url", .string "a"), ("mode", .null), ("retry_duration_secs", .number (.integer 0)),
    ("x", .object [("url", .null)]), ("url", .string " h ")]

/-- Variables of which one spells nothing. -/
def sampleEnvironment : Environment := fun name =>
  [("OUTPORT_MODE", "SERVER"), ("OUTPORT_WITH_ACK", "maybe"),
    ("OUTPORT_RETRY_SECS", "+007")].lookup name

theorem load_sample : HoldsObject sampleFile sampleMembers ∧ Loads sampleFile sampleMembers ∧
    load (some (.contents sampleFile)) sampleEnvironment =
      .ok { url := " h ", mode := .server, retryDurationSecs := 7 } := by
  have hholds : HoldsObject sampleFile sampleMembers := ⟨by decide +kernel, _, rfl, rfl⟩
  exact ⟨hholds, load_layered _ _ hholds, by decide +kernel⟩

end BlockFeed.Config
