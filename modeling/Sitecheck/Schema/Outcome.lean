import Sitecheck.Fault

/-!
# Reading typed data

Reading gives a value, or all the issues found, in order, or it ends at a fault
that is no issue of the data.  Parts are read independently of each other: the
issues of one part do not hide those of the next.
-/

namespace Sitecheck.Schema

inductive Outcome (α : Type) where
  | value (result : α)
  | issues (found : List Issue)
  | fault (cause : Fault)

namespace Outcome

variable {α β : Type}

def map (f : α → β) : Outcome α → Outcome β
  | .value a => .value (f a)
  | .issues found => .issues found
  | .fault cause => .fault cause

/-- Puts two parts together; the issues of the first come first. -/
def seq (f : Outcome (α → β)) (x : Outcome α) : Outcome β :=
  match f, x with
  | .fault cause, _ => .fault cause
  | .value f, x => x.map f
  | .issues _, .fault cause => .fault cause
  | .issues found, .value _ => .issues found
  | .issues found, .issues more => .issues (found ++ more)

instance : Applicative Outcome where
  pure := .value
  map f x := x.map f
  seq f x := f.seq (x ())

def fail (cause : Cause) : Outcome α := .issues [⟨[], cause⟩]

/-- Says of what is found that it lies one step further down. -/
def under (step : Step) : Outcome α → Outcome α
  | .issues found => .issues (found.map (Issue.under step))
  | other => other

/-- Goes on with a value; what is found wrong stays. -/
def andThen (x : Outcome α) (f : α → Outcome β) : Outcome β :=
  match x with
  | .value a => f a
  | .issues found => .issues found
  | .fault cause => .fault cause

/-- The value, or the fault of data that is none for a type of this name. -/
def orFault (subject : String) : Outcome α → Except Fault α
  | .value a => .ok a
  | .issues found => .error (.invalid ⟨subject, found⟩)
  | .fault cause => .error cause

@[simp] theorem seq_value (f : α → β) (a : α) : seq (.value f) (.value a) = .value (f a) := rfl

theorem seq_eq_value_iff {f : Outcome (α → β)} {x : Outcome α} {b : β} :
    f.seq x = .value b ↔ ∃ g a, f = .value g ∧ x = .value a ∧ g a = b := by
  cases f <;> cases x <;> simp [seq, map]

end Outcome

abbrev Reader (α : Type) := Json → Outcome α

end Sitecheck.Schema
