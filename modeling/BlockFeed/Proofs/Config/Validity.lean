import BlockFeed.Proofs.Text.Spelling

/-!
# Validity under overrides

What the overrides of an environment make of a valid configuration.

## Main definitions

* `Environment.BlanksUrl`: the variable of the url holds nothing but blanks.

## Main results

* `Config.validate_override`: a configuration stays valid unless its url is overridden by blanks,
  and then it is refused for that.

## Design notes

A retry interval that would not be valid is out of the bounds in which one is taken from a variable.
The url has no such bounds: whatever is not empty is taken, and a url of blanks is not empty.
-/

namespace BlockFeed

/-- The variable of the url is not empty, but holds nothing but blanks. -/
def Environment.BlanksUrl (env : Environment) : Prop :=
  ∃ url, env "OUTPORT_URL" = some url ∧ url ≠ "" ∧ ∀ c ∈ url.toList, Text.isBlank c = true

namespace Config

variable {c : Config}

theorem validate_eq_ok_iff : c.validate = .ok () ↔
    (¬∀ d ∈ c.url.toList, Text.isBlank d = true) ∧ c.retryDurationSecs ≠ 0 := by
  rw [validate, ← Text.isEmpty_trim_iff]
  split
  · next hblank => simp [hblank]
  · next hurl =>
    split
    · next hzero => simp [hzero]
    · next hretry => simp [hurl, hretry]

theorem validate_of_blank (h : ∀ d ∈ c.url.toList, Text.isBlank d = true) :
    c.validate = .error .emptyUrl := if_pos (Text.isEmpty_trim_iff.mpr h)

/-- The url of an environment is whatever stands in its variable, if that is not empty. -/
theorem url_override (c : Config) (env : Environment) :
    ((c.override env).url = c.url ∧ ∀ url, env "OUTPORT_URL" = some url → url = "") ∨
      ∃ url, env "OUTPORT_URL" = some url ∧ url ≠ "" ∧ (c.override env).url = url := by
  have hurl : (c.override env).url = ((env "OUTPORT_URL").filter fun v => !v.isEmpty).getD c.url :=
    rfl
  rw [hurl]
  cases henv : env "OUTPORT_URL" with
  | none => exact .inl ⟨rfl, nofun⟩
  | some url =>
    by_cases hempty : url = ""
    · subst hempty
      exact .inl ⟨rfl, fun _ h => (Option.some.inj h).symm⟩
    · exact .inr ⟨url, rfl, hempty, by simp [Option.filter, hempty]⟩

/-- A retry interval of an environment is at least one second, whatever stands in its variable. -/
theorem retryDurationSecs_override (c : Config) (env : Environment) :
    (c.override env).retryDurationSecs = c.retryDurationSecs ∨
      1 ≤ (c.override env).retryDurationSecs := by
  have hretry : (c.override env).retryDurationSecs = ((env.get? "OUTPORT_RETRY_SECS").bind
      (Text.inRange? retryBounds.1 retryBounds.2)).getD c.retryDurationSecs := rfl
  rw [hretry]
  cases hspelled : (env.get? "OUTPORT_RETRY_SECS").bind
      (Text.inRange? retryBounds.1 retryBounds.2) with
  | none => exact .inl rfl
  | some n =>
    obtain ⟨s, -, hs⟩ := Option.bind_eq_some_iff.mp hspelled
    exact .inr (Text.inRange?_eq_some_iff.mp hs).2.1

/-- A valid configuration stays valid under the overrides of an environment unless its url is
overridden by blanks: then it is refused for its url. -/
theorem validate_override (c : Config) (env : Environment) (valid : c.validate = .ok ()) :
    ((c.override env).validate = .ok () ∧ ¬env.BlanksUrl) ∨
      ((c.override env).validate = .error .emptyUrl ∧ env.BlanksUrl) := by
  obtain ⟨hurl, hretry⟩ := validate_eq_ok_iff.mp valid
  have hretry' : (c.override env).retryDurationSecs ≠ 0 := by
    rcases c.retryDurationSecs_override env with hsame | hpos
    · rwa [hsame]
    · intro hzero
      rw [hzero] at hpos
      cases hpos
  rcases c.url_override env with ⟨hsame, hempty⟩ | ⟨url, henv, hne, htaken⟩
  · refine .inl ⟨validate_eq_ok_iff.mpr ⟨by rwa [hsame], hretry'⟩, ?_⟩
    rintro ⟨url, henv, hne, -⟩
    exact hne (hempty url henv)
  · by_cases hblank : ∀ d ∈ url.toList, Text.isBlank d = true
    · exact .inr ⟨validate_of_blank (htaken.symm ▸ hblank), url, henv, hne, hblank⟩
    · refine .inl ⟨validate_eq_ok_iff.mpr ⟨by rwa [htaken], hretry'⟩, ?_⟩
      rintro ⟨url', henv', -, hblank'⟩
      obtain rfl := Option.some.inj (henv.symm.trans henv')
      exact hblank hblank'

/-- Variables that hold an ideographic space for the url, and a retry interval of zero. -/
def blankEnvironment : Environment := fun name =>
  [("OUTPORT_URL", "\u3000"), ("OUTPORT_RETRY_SECS", "0")].lookup name

/-- The defaults are valid, and are not once their url is overridden by blanks. -/
theorem validate_override_blank : ({} : Config).validate = .ok () ∧
    (({} : Config).override blankEnvironment).validate = .error .emptyUrl ∧
    (({} : Config).override blankEnvironment).retryDurationSecs = 5 := by
  have hvalid : ({} : Config).validate = .ok () := by decide +kernel
  have hblanks : blankEnvironment.BlanksUrl :=
    ⟨"\u3000", rfl, by decide, List.forall_mem_singleton.mpr (by decide)⟩
  refine ⟨hvalid, ?_, by decide +kernel⟩
  rcases validate_override {} blankEnvironment hvalid with ⟨-, hnot⟩ | ⟨hrefused, -⟩
  · exact absurd hblanks hnot
  · exact hrefused

/-- Overrides do not keep every valid configuration valid. -/
theorem overrides_invalidate : ¬∀ (c : Config) (env : Environment), c.validate = .ok () →
    (c.override env).validate = .ok () := by
  intro h
  have hrefused : (({} : Config).override blankEnvironment).validate = .error .emptyUrl := by
    decide +kernel
  cases hrefused.symm.trans (h {} blankEnvironment (by decide +kernel))

end Config

end BlockFeed
