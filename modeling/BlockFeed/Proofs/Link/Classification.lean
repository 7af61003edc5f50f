import Mathlib.Data.List.Infix
import BlockFeed.Link.Error

/-!
# Classification of socket failures

The dialing side tells a lost connection by the kind of a socket failure, the accepting side by the
words in its text. Failures of input and output are where the two can differ.

## Main definitions

* `IoKind.EndsConnection`: the kinds that mean that the connection is gone.

## Main results

* `ConnectionError.sides_agree_iff`: when both sides take the same view of a failure.
* `ConnectionError.sides_differ_on_abort`: an aborted connection is gone for the dialing side only.
-/

namespace BlockFeed

namespace Text

/-- The word and a text do not overlap where the text ends, nor does the word occur before that. -/
def Avoids (word text : List Char) : Prop :=
  ∀ t ∈ text.tails, t ≠ [] → ¬t <+: word ∧ ¬word <+: t

instance (word text : List Char) : Decidable (Avoids word text) := by
  unfold Avoids
  infer_instance

/-- A text that a word avoids can be put before any other without letting the word occur. -/
theorem occursIn_append {word text : List Char} (h : Avoids word text) (rest : List Char) :
    occursIn word (text ++ rest) = occursIn word rest := by
  induction text with
  | nil => rfl
  | cons c cs ih =>
    obtain ⟨hhere, hlater⟩ := List.forall_mem_cons.mp h
    have hprefix : word.isPrefixOf (c :: cs ++ rest) = false := by
      rw [Bool.eq_false_iff, Ne, List.isPrefixOf_iff_prefix]
      intro hword
      -- the word would lie within the text, or go beyond its end
      have hends := List.prefix_or_prefix_of_prefix hword (List.prefix_append (c :: cs) rest)
      rcases hends with hin | hout
      · exact (hhere (List.cons_ne_nil c cs)).2 hin
      · exact (hhere (List.cons_ne_nil c cs)).1 hout
    rw [List.cons_append] at hprefix ⊢
    rw [occursIn, hprefix, Bool.false_or]
    exact ih hlater

theorem toList_lower_append (s t : String) :
    (lower (s ++ t)).toList = (lower s).toList ++ (lower t).toList := by
  simp [lower]

end Text

/-- The failure of input or output means that the connection is gone. -/
def IoKind.EndsConnection (kind : IoKind) : Prop :=
  kind ∈ [brokenPipe, connectionReset, connectionAborted, unexpectedEof]

namespace ConnectionError

theorem isClosed_io (kind : IoKind) (message : String) :
    (io kind message).isClosed = true ↔ kind.EndsConnection := by
  cases kind <;> simp [isClosed, IoKind.EndsConnection]

/-- What stands before the message of a failure of input or output tells nothing. -/
theorem tellsClosed_text_io (kind : IoKind) (message : String) :
    tellsClosed (SocketError.io kind message).text = tellsClosed message := by
  have havoids : ∀ w ∈ closingWords,
      Text.Avoids w.toList (Text.lower "IO error: ").toList := by decide +kernel
  have hword (w : String) (hw : w ∈ closingWords) :
      Text.contains (Text.lower ("IO error: " ++ message)) w
        = Text.contains (Text.lower message) w := by
    rw [Text.contains, Text.toList_lower_append, Text.occursIn_append (havoids w hw), Text.contains]
  have htext : (SocketError.io kind message).text = "IO error: " ++ message := rfl
  rw [htext, Bool.eq_iff_iff]
  simp only [tellsClosed, List.any_eq_true]
  exact exists_congr fun w => and_congr_right fun hw => by rw [hword w hw]

theorem isClosed_ofAccepted (e : SocketError) : (ofAccepted e).isClosed = tellsClosed e.text := rfl

/-- The dialing side looks at the text of a failure too, unless it is of input or output or tells by
itself that the connection is closed; the text tells that then. -/
theorem isClosed_ofDialed {e : SocketError} (h : ∀ kind message, e ≠ .io kind message) :
    (ofDialed e).isClosed = tellsClosed e.text := by
  unfold ofDialed
  split
  · decide +kernel
  · decide +kernel
  · decide +kernel
  · next kind message => exact absurd rfl (h kind message)
  · rfl

/-- The two sides take the same view of a socket failure, unless it is one of input or output whose
kind tells of a lost connection and whose message does not, or the other way round. -/
theorem sides_agree_iff (e : SocketError) :
    (ofDialed e).isClosed = (ofAccepted e).isClosed ↔
      ∀ kind message, e = .io kind message →
        (kind.EndsConnection ↔ tellsClosed message = true) := by
  rw [isClosed_ofAccepted]
  by_cases hio : ∃ kind message, e = .io kind message
  · obtain ⟨kind, message, rfl⟩ := hio
    rw [tellsClosed_text_io, ofDialed, Bool.eq_iff_iff, isClosed_io]
    constructor
    · rintro h _ _ heq
      obtain ⟨rfl, rfl⟩ := SocketError.io.inj heq
      exact h
    · exact fun h => h kind message rfl
  · have hnot : ∀ kind message, e ≠ .io kind message := fun kind message heq =>
      hio ⟨kind, message, heq⟩
    exact iff_of_true (isClosed_ofDialed hnot) fun kind message heq =>
      absurd heq (hnot kind message)

/-- An aborted connection is gone for the dialing side, and not for the accepting side. -/
theorem sides_differ_on_abort :
    (ofDialed (.io .connectionAborted "Software caused connection abort (os error 103)")).isClosed
        = true ∧
      (ofAccepted (.io .connectionAborted
        "Software caused connection abort (os error 103)")).isClosed = false := by
  decide +kernel

end ConnectionError

end BlockFeed
