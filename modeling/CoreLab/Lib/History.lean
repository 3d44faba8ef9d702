import Mathlib.Data.List.Induction

/-!
# Lib.History

Logs to which events are appended, and laws that say which event may follow the ones before it.

* `Lawful` — each event of the log was allowed when it was appended;
* `Lawful.concat` — a log stays lawful as it grows;
* `Lawful.allowed_of_mem` — what stands in a lawful log was allowed by what stood before it;
* `Since`, `since_concat_iff` — something was begun in the log, and nothing has ended it.

What a law asks of the log so far is best said by folds over it, which one more event brings up to
date.
-/

namespace History

variable {ε : Type} {Allowed : List ε → ε → Prop} {log : List ε} {e : ε}

/-- Each event of the log is one that may follow those before it. -/
def Lawful (Allowed : List ε → ε → Prop) (log : List ε) : Prop :=
  ∀ before e after, log = before ++ e :: after → Allowed before e

theorem lawful_nil : Lawful Allowed [] := by
  intro before e after h
  simp at h

/-- One more event, which the log allows. -/
theorem Lawful.concat (h : Lawful Allowed log) (he : Allowed log e) :
    Lawful Allowed (log ++ [e]) := by
  intro before f after hlog
  rcases List.eq_nil_or_concat after with rfl | ⟨after, g, rfl⟩
  · obtain ⟨rfl, hf⟩ := List.append_inj' hlog rfl
    obtain rfl := (List.cons.inj hf).1
    exact he
  · rw [List.concat_eq_append, ← List.cons_append, ← List.append_assoc] at hlog
    exact h before f after (List.append_inj' hlog rfl).1

/-- The log as it was before its last events. -/
theorem Lawful.of_append {more : List ε} (h : Lawful Allowed (log ++ more)) : Lawful Allowed log := by
  intro before e after hlog
  refine h before e (after ++ more) ?_
  rw [hlog, List.append_assoc, List.cons_append]

theorem Lawful.last (h : Lawful Allowed (log ++ [e])) : Allowed log e := h log e [] rfl

theorem lawful_concat_iff : Lawful Allowed (log ++ [e]) ↔ Lawful Allowed log ∧ Allowed log e :=
  ⟨fun h => ⟨h.of_append, h.last⟩, fun h => h.1.concat h.2⟩

/-- An event of the log was allowed by what came before it. -/
theorem Lawful.allowed_of_mem (h : Lawful Allowed log) (he : e ∈ log) :
    ∃ before, before <+: log ∧ Allowed before e := by
  obtain ⟨before, after, hlog⟩ := List.append_of_mem he
  exact ⟨before, ⟨e :: after, hlog.symm⟩, h before e after hlog⟩

/-- An event of the log begins it, and each event after that keeps it. -/
def Since (Begins : ε → Prop) (Keeps : List ε → ε → Prop) (log : List ε) : Prop :=
  ∃ before e after, log = before ++ e :: after ∧ Begins e ∧
    Lawful (fun between f => Keeps (before ++ e :: between) f) after

section Since

variable {Begins : ε → Prop} {Keeps : List ε → ε → Prop}

theorem not_since_nil : ¬ Since Begins Keeps [] := by
  rintro ⟨before, e, after, h, -⟩
  simp at h

/-- It holds after an event that begins it, or that keeps it where it held before. -/
theorem since_concat_iff : Since Begins Keeps (log ++ [e]) ↔
    Begins e ∨ Since Begins Keeps log ∧ Keeps log e := by
  constructor
  · rintro ⟨before, f, after, hlog, hbegins, hkeeps⟩
    rcases List.eq_nil_or_concat after with rfl | ⟨after, g, rfl⟩
    · obtain ⟨-, heq⟩ := List.append_inj' hlog rfl
      exact Or.inl ((List.cons.inj heq).1 ▸ hbegins)
    · rw [List.concat_eq_append, ← List.cons_append, ← List.append_assoc] at hlog
      obtain ⟨rfl, heq⟩ := List.append_inj' hlog rfl
      obtain rfl := (List.cons.inj heq).1
      rw [List.concat_eq_append, lawful_concat_iff] at hkeeps
      exact Or.inr ⟨⟨before, f, after, rfl, hbegins, hkeeps.1⟩, hkeeps.2⟩
  · rintro (hbegins | ⟨⟨before, f, after, rfl, hbegins, hkeeps⟩, hkeep⟩)
    · exact ⟨log, e, [], rfl, hbegins, lawful_nil⟩
    · refine ⟨before, f, after ++ [e], ?_, hbegins, hkeeps.concat hkeep⟩
      rw [List.append_assoc, List.cons_append]

end Since

end History
