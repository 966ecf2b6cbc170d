import TestPlan.Proofs.IncludeChain

/-!
# Histories of include chains

Whatever libraries are entered and left, also where that fails, a chain tells what has happened to it: its names
are the libraries that have been entered and not been left since (`IncludeChain.Standing`). Like brackets, the
leaving of a library belongs to the last entering that none belongs to yet, and between the two everything is
settled (`IncludeChain.Settled`). One move keeps the chain to its history (`IncludeChain.Follows.move`), and so do
any moves from the empty chain on (`IncludeChain.moves_follow`). What a move answers is told by the names.
-/

namespace TestPlan.IncludeChain

variable {chain shorter : IncludeChain} {limit : Int} {name : Text} {names : List Text}
  {events before after : List Event}

/-- Whether a move fails. -/
def Event.isFailure : Event → Bool
  | .entered _ => false
  | .left _ => false
  | .refused _ => true
  | .unmoved => true

/-- Events in which every library that is entered is left again. -/
inductive Settled : List Event → Prop
  | nil : Settled []
  | failed {event : Event} {rest : List Event} (hevent : event.isFailure = true) (hrest : Settled rest) :
      Settled (event :: rest)
  | visit {inner rest : List Event} (name : Text) (hinner : Settled inner) (hrest : Settled rest) :
      Settled (.entered name :: inner ++ .left name :: rest)

/-- The libraries that are entered in a history and not left since, in order. -/
inductive Standing : List Text → List Event → Prop
  | none {events : List Event} (h : Settled events) : Standing [] events
  | last {names : List Text} {before after : List Event} (name : Text) (hbefore : Standing names before)
      (hafter : Settled after) : Standing (names ++ [name]) (before ++ .entered name :: after)

/-- What is settled on its own is settled one after the other. -/
theorem Settled.append (h : Settled before) (hafter : Settled after) : Settled (before ++ after) := by
  induction h with
  | nil => exact hafter
  | failed hevent _ ih => exact .failed hevent ih
  | @visit inner rest name hinner _ _ ih =>
    rw [List.append_assoc]
    exact .visit name hinner ih

/-- Settled events change nothing about what has been entered before. -/
theorem Standing.append (h : Standing names before) (hafter : Settled after) :
    Standing names (before ++ after) := by
  cases h with
  | none h => exact .none (h.append hafter)
  | @last names first between name hbefore hbetween =>
    rw [List.append_assoc]
    exact .last name hbefore (hbetween.append hafter)

/-- What is entered last is standing. -/
theorem Standing.enter (h : Standing names before) (name : Text) :
    Standing (names ++ [name]) (before ++ [.entered name]) := .last name h .nil

/-- When the last library is left, the others are standing. -/
theorem Standing.leave (h : Standing (names ++ [name]) before) : Standing names (before ++ [.left name]) := by
  generalize hall : names ++ [name] = all at h
  cases h with
  | none => simp at hall
  | @last others first inner last hfirst hinner =>
    obtain ⟨rfl, hlast⟩ := List.append_inj' hall rfl
    obtain rfl := List.singleton_inj.mp hlast
    rw [List.append_assoc]
    exact hfirst.append (.visit name hinner .nil)

/-- The names on a chain after an event. -/
def Event.namesAfter (names : List Text) : Event → List Text
  | .entered name => names ++ [name]
  | .left _ => names.dropLast
  | .refused _ => names
  | .unmoved => names

/-- A move that fails leaves the names as they are. -/
theorem Event.namesAfter_of_isFailure {event : Event} (h : event.isFailure = true) (names : List Text) :
    event.namesAfter names = names := by
  cases event with
  | entered name => simp [isFailure] at h
  | refused e => rfl
  | left name => simp [isFailure] at h
  | unmoved => rfl

/-- Settled events leave the names as they are. -/
theorem Settled.foldl_eq (h : Settled events) (names : List Text) :
    events.foldl Event.namesAfter names = names := by
  induction h generalizing names with
  | nil => rfl
  | failed hevent _ ih => rw [List.foldl_cons, Event.namesAfter_of_isFailure hevent, ih]
  | visit name _ _ hinner hrest =>
    rw [List.foldl_append, List.foldl_cons, List.foldl_cons, hinner, hrest, Event.namesAfter, Event.namesAfter,
      List.dropLast_concat]

/-- Events leave the names that are standing after them. -/
theorem Standing.foldl_eq (h : Standing names events) : events.foldl Event.namesAfter [] = names := by
  induction h with
  | none h => exact h.foldl_eq []
  | last name _ hafter ih => rw [List.foldl_append, List.foldl_cons, ih, hafter.foldl_eq, Event.namesAfter]

/-- A history tells what is standing. -/
theorem Standing.unique {others : List Text} (h : Standing names events) (hothers : Standing others events) :
    names = others := h.foldl_eq.symm.trans hothers.foldl_eq

/-- There is no library to leave exactly on the chain without names. -/
theorem pop?_eq_none_iff : chain.pop? = none ↔ chain.names = [] := by
  rw [pop?, Option.map_eq_none_iff, List.getLast?_eq_none_iff]

/-- The library that is left is the last one. -/
theorem names_of_pop? (h : chain.pop? = some (name, shorter)) : chain.names = shorter.names ++ [name] := by
  obtain ⟨last, hlast, heq⟩ := Option.map_eq_some_iff.mp h
  obtain ⟨rfl, rfl⟩ := Prod.mk.inj heq
  obtain ⟨front, hfront⟩ := List.getLast?_eq_some_iff.mp hlast
  simp [hfront]

/-- A move enters a library, or leaves the last one, or fails and leaves the chain as it was. -/
theorem move_cases (chain : IncludeChain) (m : Move) :
    (∃ name longer, chain.push name = .ok longer ∧ chain.move m = (.entered name, longer)) ∨
    (∃ name, chain.names = chain.left.names ++ [name] ∧ chain.move m = (.left name, chain.left)) ∨
    (chain.move m).1.isFailure = true ∧ (chain.move m).2 = chain := by
  cases m with
  | enter name =>
    cases hpush : chain.push name with
    | ok longer => exact .inl ⟨name, longer, hpush, by simp only [move, hpush]⟩
    | error e => exact .inr (.inr (by simp only [move, hpush, Event.isFailure, and_self]))
  | leave =>
    cases hpop : chain.pop? with
    | some found =>
      obtain ⟨name, shorter⟩ := found
      have hleft : chain.left = shorter := by simp [left, hpop]
      refine .inr (.inl ⟨name, ?_, ?_⟩)
      · rw [hleft, names_of_pop? hpop]
      · rw [hleft, move, hpop]
    | none => exact .inr (.inr (by simp only [move, hpop, Event.isFailure, and_self]))

/-- A chain keeps to its limit, and its names are those that are standing after a history. -/
structure Follows (chain : IncludeChain) (limit : Int) (history : List Event) :
    Prop extends chain.IsSound limit where
  standing : Standing chain.names history

/-- A move keeps a chain to its history. -/
theorem Follows.move (h : chain.Follows limit events) (m : Move) :
    (chain.move m).2.Follows limit (events ++ [(chain.move m).1]) := by
  rcases chain.move_cases m with ⟨name, longer, hpush, hmove⟩ | ⟨name, hnames, hmove⟩ | ⟨hfailure, hmove⟩
  · rw [hmove]
    refine ⟨h.toIsSound.push hpush, ?_⟩
    obtain ⟨-, rfl⟩ := push_eq_ok hpush
    exact h.standing.enter name
  · rw [hmove]
    exact ⟨h.toIsSound.left, (hnames ▸ h.standing).leave⟩
  · rw [hmove]
    exact ⟨h.toIsSound, h.standing.append (.failed hfailure .nil)⟩

/-- What comes of moves that are made one after the other, and the chain after them. -/
def moves (chain : IncludeChain) : List Move → List Event × IncludeChain
  | [] => ([], chain)
  | m :: rest =>
    let (event, next) := chain.move m
    let (events, last) := next.moves rest
    (event :: events, last)

/-- Moves keep a chain to its history. -/
theorem Follows.moves (h : chain.Follows limit events) (ms : List Move) :
    (chain.moves ms).2.Follows limit (events ++ (chain.moves ms).1) := by
  induction ms generalizing chain events with
  | nil =>
    rw [IncludeChain.moves, List.append_nil]
    exact h
  | cons m rest ih => simpa [IncludeChain.moves] using ih (h.move m)

/-- The moves that are made on an empty chain are its history. -/
theorem moves_follow (limit : Int) (ms : List Move) :
    ((empty limit).moves ms).2.Follows limit ((empty limit).moves ms).1 := by
  have hempty : (empty limit).Follows limit [] := ⟨isSound_empty limit, .none .nil⟩
  simpa using hempty.moves ms

/-- A library is refused as circular exactly if it is on the chain, with the chain and its name behind it. -/
theorem push_eq_circular_iff : chain.push name = .error (.circular names) ↔
    name ∈ chain.names ∧ names = chain.names ++ [name] := by
  constructor
  · exact mem_of_circular
  · rintro ⟨hmem, rfl⟩
    exact push_of_mem hmem

/-- A library is refused for its depth exactly if it is not on the chain and the chain is as long as its limit. -/
theorem push_eq_tooDeep_iff {most : Int} : chain.push name = .error (.tooDeep names most) ↔
    name ∉ chain.names ∧ chain.limit ≤ chain.depth ∧ names = chain.names ∧ most = chain.limit := by
  by_cases hmem : name ∈ chain.names
  · simp [push_of_mem hmem, hmem]
  · by_cases hfull : chain.limit ≤ chain.depth
    · simp [push_of_full hmem hfull, hmem, hfull, eq_comm]
    · simp [push_of_room hmem (by omega : (chain.depth : Int) < chain.limit), hfull]

/-- A library that is refused for its depth would have been one deeper than the limit allows. -/
theorem IsSound.depth?_of_push {most : Int} (h : chain.IsSound limit)
    (hpush : chain.push name = .error (.tooDeep names most)) :
    (IncludeError.tooDeep names most).depth? = some ((max limit 0).toNat + 1) := by
  obtain ⟨-, hfull, rfl, -⟩ := push_eq_tooDeep_iff.mp hpush
  have hbounded := h.bounded
  rw [h.limit_eq, depth] at hfull
  have hlength : chain.names.length = (max limit 0).toNat := by omega
  rw [IncludeError.depth?, hlength]

/-- After any moves on an empty chain its names are the libraries that have been entered and not been left since,
in order, without duplicates and not more than the limit allows. A library is refused as circular exactly if it is
on the chain, also when the chain is full, with the chain and its name behind it, and otherwise for its depth
exactly if the chain is as long as the limit. Only from the chain without names no library can be left, and a move
that fails leaves the chain as it was. -/
theorem chain_tells_history (limit : Int) (ms : List Move) :
    let history := ((empty limit).moves ms).1
    let chain := ((empty limit).moves ms).2
    (∀ names, Standing names history ↔ names = chain.names) ∧
    chain.names.Nodup ∧ (chain.depth : Int) ≤ max limit 0 ∧
    (∀ name names, chain.push name = .error (.circular names) ↔
      name ∈ chain.names ∧ names = chain.names ++ [name]) ∧
    (∀ name names most, chain.push name = .error (.tooDeep names most) ↔
      name ∉ chain.names ∧ limit ≤ chain.depth ∧ names = chain.names ∧ most = limit) ∧
    (∀ name names most, chain.push name = .error (.tooDeep names most) →
      (IncludeError.tooDeep names most).depth? = some ((max limit 0).toNat + 1)) ∧
    (chain.pop? = none ↔ chain.names = []) ∧
    ∀ m, (chain.move m).1.isFailure = true → (chain.move m).2 = chain := by
  intro history chain
  have h : chain.Follows limit history := moves_follow limit ms
  have hlimit : chain.limit = limit := h.limit_eq
  refine ⟨fun names => ⟨fun hnames => hnames.unique h.standing, ?_⟩, h.nodup, ?_, fun _ _ => push_eq_circular_iff,
    fun _ _ _ => hlimit ▸ push_eq_tooDeep_iff, fun _ _ _ => h.depth?_of_push, pop?_eq_none_iff,
    fun m hfailure => ?_⟩
  · rintro rfl
    exact h.standing
  · have hbounded := h.bounded
    rw [depth]
    omega
  · rcases chain.move_cases m with ⟨name, longer, -, hmove⟩ | ⟨name, -, hmove⟩ | ⟨-, hmove⟩
    · simp [hmove, Event.isFailure] at hfailure
    · simp [hmove, Event.isFailure] at hfailure
    · exact hmove

/-- A library is left in between and another one refused, which counts neither for the names nor for the depth. -/
theorem chain_tells_history_of_return :
    let ms : List Move := [.enter "a", .enter "b", .enter "a", .leave, .enter "c"]
    let history : List Event := [.entered "a", .entered "b", .refused (.circular ["a", "b", "a"]), .left "b",
      .entered "c"]
    let chain : IncludeChain := ⟨["a", "c"], 2⟩
    (empty 2).moves ms = (history, chain) ∧ Standing ["a", "c"] history ∧
      chain.push "d" = .error (.tooDeep ["a", "c"] 2) ∧
      (IncludeError.tooDeep ["a", "c"] 2).depth? = some 3 ∧
      (chain.move (.enter "a")).1.isFailure = true ∧ (chain.move (.enter "a")).2 = chain := by
  intro ms history chain
  have hmoves : (empty 2).moves ms = (history, chain) := by decide
  have hall := chain_tells_history 2 ms
  rw [hmoves] at hall
  obtain ⟨hstanding, -, -, -, -, hdepth, -, hkept⟩ := hall
  have hpush : chain.push "d" = .error (.tooDeep ["a", "c"] 2) := rfl
  have hfailure : (chain.move (.enter "a")).1.isFailure = true := rfl
  exact ⟨hmoves, (hstanding _).mpr rfl, hpush, hdepth _ _ _ hpush, hfailure, hkept _ hfailure⟩

end TestPlan.IncludeChain
