import TestPlan.Number.Digits

/-!
# Include chains

The step libraries that are being expanded, outermost first. A library may be entered when it is not on
the chain and the chain is shorter than its limit; both are checked in this order, and a refused library
leaves the chain as it was.
-/

namespace TestPlan

/-- Why a library may not be entered. -/
inductive IncludeError
  /-- the library is on the chain, which is given with the library at its end -/
  | circular (chain : List Text)
  /-- the chain is as long as its limit allows -/
  | tooDeep (chain : List Text) (limit : Int)
  deriving DecidableEq

namespace IncludeError

/-- Names with arrows between them. -/
def arrows (names : List Text) : Text := Text.joinWith " → " names

/-- Whether what an error says can be written, which the digits of the limit decide. -/
def isWritable : IncludeError → Bool
  | circular _ => true
  | tooDeep _ limit => Number.isWritable limit

/-- What an error says. -/
def message : IncludeError → Text
  | circular chain => "Circular include detected: " ++ arrows chain
  | tooDeep chain limit =>
    "Maximum include depth (" ++ Number.text limit ++ ") exceeded. Current chain: " ++ arrows chain

/-- The depth at which a library was to be entered that was refused for its depth. -/
def depth? : IncludeError → Option Nat
  | circular _ => none
  | tooDeep chain _ => some (chain.length + 1)

end IncludeError

/-- The libraries being expanded, and how many there may be. -/
structure IncludeChain where
  names : List Text
  limit : Int
  deriving DecidableEq

namespace IncludeChain

/-- The chain on which no library is. -/
def empty (limit : Int) : IncludeChain := ⟨[], limit⟩

/-- How many libraries are being expanded. -/
def depth (chain : IncludeChain) : Nat := chain.names.length

/-- Enter a library. -/
def push (chain : IncludeChain) (name : Text) : Except IncludeError IncludeChain :=
  if name ∈ chain.names then .error (.circular (chain.names ++ [name]))
  else if (chain.depth : Int) ≥ chain.limit then .error (.tooDeep chain.names chain.limit)
  else .ok { chain with names := chain.names ++ [name] }

/-- Leave the innermost library; there is none on the empty chain. -/
def pop? (chain : IncludeChain) : Option (Text × IncludeChain) :=
  chain.names.getLast?.map fun name => (name, { chain with names := chain.names.dropLast })

/-- What may be done with a chain. -/
inductive Move
  | enter (name : Text)
  | leave
  deriving DecidableEq

/-- What comes of a move. -/
inductive Event
  | entered (name : Text)
  | refused (error : IncludeError)
  | left (name : Text)
  /-- there is no library to leave -/
  | unmoved
  deriving DecidableEq

/-- Make a move: what comes of it, and the chain after it. A move that fails leaves the chain as it was. -/
def move (chain : IncludeChain) : Move → Event × IncludeChain
  | .enter name =>
    match chain.push name with
    | .ok longer => (.entered name, longer)
    | .error e => (.refused e, chain)
  | .leave =>
    match chain.pop? with
    | some (name, shorter) => (.left name, shorter)
    | none => (.unmoved, chain)

/-- A library on the chain is refused, also when the chain is full. -/
theorem push_of_mem {chain : IncludeChain} {name : Text} (h : name ∈ chain.names) :
    chain.push name = .error (.circular (chain.names ++ [name])) := by
  rw [push, if_pos h]

/-- A library that is not on the chain is refused when the chain is as long as its limit. -/
theorem push_of_full {chain : IncludeChain} {name : Text} (hname : name ∉ chain.names)
    (hfull : chain.limit ≤ chain.depth) :
    chain.push name = .error (.tooDeep chain.names chain.limit) := by
  rw [push, if_neg hname, if_pos hfull]

/-- A library that is not on the chain is entered while the chain is shorter than its limit. -/
theorem push_of_room {chain : IncludeChain} {name : Text} (hname : name ∉ chain.names)
    (hroom : (chain.depth : Int) < chain.limit) :
    chain.push name = .ok { chain with names := chain.names ++ [name] } := by
  rw [push, if_neg hname, if_neg (by omega)]

/-- A refusal can be written if the limit of the chain can. -/
theorem isWritable_of_push {chain : IncludeChain} {name : Text} {e : IncludeError} (h : chain.push name = .error e)
    (hlimit : Number.isWritable chain.limit = true) : e.isWritable = true := by
  unfold push at h
  split at h
  · obtain rfl := Except.error.inj h
    rfl
  · split at h
    · obtain rfl := Except.error.inj h
      exact hlimit
    · simp at h

/-- Entering a library succeeds only if it is not on the chain, and puts it at the end. -/
theorem push_eq_ok {chain longer : IncludeChain} {name : Text} (h : chain.push name = .ok longer) :
    name ∉ chain.names ∧ longer = { chain with names := chain.names ++ [name] } := by
  unfold push at h
  split at h
  · simp at h
  · split at h
    · simp at h
    · rename_i hname _
      exact ⟨hname, by simpa using h.symm⟩

end IncludeChain
end TestPlan
