import TestPlan.Value.Basic

/-!
# What is left to the runtime

Some of what a run does follows neither from its files nor from its arguments: in which order the members of a set
come, in which words a malformed document is refused, and which texts standard output takes. These are the same
throughout a run, but they may be others in the next one, so they are taken as they are (`Runtime`).
-/

namespace TestPlan

/-- How standard output takes texts. -/
inductive StandardOutput
  /-- a text becomes UTF-8, which has no form for halves of characters -/
  | strict
  /-- every text is taken as it is, as by a buffer in memory -/
  | lenient
  deriving DecidableEq

/-- What a run takes from the runtime that it is made in. -/
class Runtime where
  /-- the members of a set in its order, where they are not all numbers: it follows from their hashes, and those of
  texts change from one process to the next -/
  arrange : List Scalar → List Scalar
  /-- a set loses none of its members to its order -/
  arrange_perm : ∀ members, (arrange members).Perm members
  /-- what is said about a text that is no document -/
  complaint : Text → Text
  output : StandardOutput

/-- A runtime in which the members of a set come as they were written, and halves of characters are not printed. -/
abbrev Runtime.plain : Runtime where
  arrange := id
  arrange_perm := List.Perm.refl
  complaint _ := "malformed document"
  output := .strict

end TestPlan
