import TestPlan.Failure
import TestPlan.Library

/-!
# Expansion

Resolving steps into instructions. An inclusion is replaced by the steps of its library, resolved under
the merged parameters: what the call gives goes over what is inherited, and both go over the library's
own defaults. An unknown library is reported and leaves a placeholder. The depth of inclusions has a limit;
where that is no number, nothing goes wrong before the first library is entered.

Libraries may include each other in any way. Every library that is entered goes onto the include chain,
and none is entered twice on one chain, so expansion ends: the libraries of the table that are not on
the chain become fewer with every inclusion (`openLibrary`).
-/

namespace TestPlan

/-- The text in place of an unknown library. -/
def missingLibrary (name : Text) : Text := "[MISSING LIBRARY: " ++ name ++ "]"

/-- The names of a table that are not on a chain. -/
def LibraryTable.outside (table : LibraryTable) (chain : IncludeChain) : List Text :=
  table.names.filter fun name => name ∉ chain.names

/-- Fewer libraries are outside the chain after one of the table has been entered. -/
theorem LibraryTable.outside_push_lt {table : LibraryTable} {chain longer : IncludeChain} {name : Text}
    (hname : name ∈ table.names) (h : chain.push name = .ok longer) :
    (table.outside longer).length < (table.outside chain).length := by
  obtain ⟨hfresh, rfl⟩ := IncludeChain.push_eq_ok h
  have hsub : table.outside { chain with names := chain.names ++ [name] } =
      (table.outside chain).filter fun n => n ≠ name := by
    simp only [LibraryTable.outside, List.filter_filter]
    congr 1
    funext n
    simp [List.mem_append, not_or, and_comm]
  rw [hsub]
  apply List.length_filter_lt_length_iff_exists.mpr
  exact ⟨name, List.mem_filter.mpr ⟨hname, by simpa using hfresh⟩, by simp⟩

/-- What expansion needs to know; there is no `maxDepth` if the limit is no number. -/
structure Expander where
  libraries : LibraryTable
  environment : Entries Value
  maxDepth : Option Int

namespace Expander

/-- Replace an inclusion by the resolved steps of its library. -/
def openLibrary (x : Expander) (chain : IncludeChain) (inherited : Entries Value) (name : Text)
    (given : Entries Value) : Run Failure (List Text) :=
  match hlib : x.libraries.get? name with
  | none => do
    Run.warn ("Step library '" ++ name ++ "' not found")
    return [missingLibrary name]
  | some library =>
    match hpush : chain.push name with
    | .error e => Run.fail (.inclusion e)
    | .ok longer =>
      have := LibraryTable.outside_push_lt (LibraryTable.mem_names_of_get? hlib) hpush
      let merged := library.resolveParameters (inherited.overlay given)
      let context : StepContext Failure :=
        ⟨⟨merged, x.environment⟩, fun inner call => x.openLibrary longer merged inner call, .step⟩
      context.runAll library.steps
termination_by (x.libraries.outside chain).length

/-- Replace an inclusion that no other one surrounds. -/
def openOutermost (x : Expander) (inherited : Entries Value) (name : Text) (given : Entries Value) :
    Run Failure (List Text) :=
  match x.maxDepth, x.libraries.get? name with
  | none, some _ => Run.fail .depthLimit
  | limit, _ => x.openLibrary (.empty (limit.getD 0)) inherited name given

/-- What steps that no inclusion surrounds depend on. -/
def outermost (x : Expander) (parameters : Entries Value) : StepContext Failure :=
  ⟨⟨parameters, x.environment⟩, x.openOutermost parameters, .step⟩

/-- Resolve the steps of a test case, in order. -/
def expand (x : Expander) (parameters : Entries Value) (steps : List Value) : Run Failure (List Text) :=
  Run.gather (x.outermost parameters).runTop steps

/-- Resolve one step of a library. -/
def processStep (x : Expander) (parameters : Entries Value) (step : Value) : Run Failure (List Text) :=
  (x.outermost parameters).run step

/-- Resolve a value that has to be an inclusion. -/
def expandInclusion (x : Expander) (parameters : Entries Value) (step : Value) :
    Run Failure (List Text) :=
  match StepNode.ofValue false step with
  | .inclusion name given => x.openOutermost parameters name given
  | .nameless => Run.fail (.step (.write .tooManyDigits))
  | _ =>
    match step.write Value.literal with
    | .ok literal => Run.fail (.notAnInclusion literal)
    | .error fault => Run.fail (.write fault)

end Expander
end TestPlan
