import TestPlan.Log

/-!
# Runs in sequence

A run that comes after another keeps the earlier messages and puts its own results after the earlier ones
(`Run.after`). Gathering the results of a list of items is gathering those of its first part and then
those of the rest, and it fails as soon as one item does.
-/

namespace TestPlan.Run

variable {ε α β : Type}

/-- A run with messages reported and results obtained before it. -/
def after (earlier : List Message) (before : List β) (run : Run ε (List β)) : Run ε (List β) :=
  ⟨earlier ++ run.log, run.outcome.map (before ++ ·)⟩

/-- Earlier messages come first. -/
@[simp] theorem after_log (earlier : List Message) (before : List β) (run : Run ε (List β)) :
    (run.after earlier before).log = earlier ++ run.log := rfl

/-- Earlier lines come first, unless the run fails. -/
@[simp] theorem after_outcome (earlier : List Message) (before : List β) (run : Run ε (List β)) :
    (run.after earlier before).outcome = run.outcome.map (before ++ ·) := rfl

/-- Where only messages come before it, a run ends as it did. -/
theorem after_messages (earlier : List Message) (run : Run ε (List β)) :
    run.after earlier [] = ⟨earlier ++ run.log, run.outcome⟩ := by
  cases h : run.outcome <;> simp [after, h, Except.map]

/-- What comes before a run that comes after something comes before all of it. -/
theorem after_after (earlier later : List Message) (before between : List β) (run : Run ε (List β)) :
    (run.after later between).after earlier before = run.after (earlier ++ later) (before ++ between) := by
  cases h : run.outcome <;> ext1 <;> simp [h, Except.map]

/-- A run succeeds after others exactly if it does on its own. -/
theorem after_outcome_eq_ok {earlier : List Message} {before results : List β} {run : Run ε (List β)} :
    (run.after earlier before).outcome = .ok results ↔
      ∃ own, run.outcome = .ok own ∧ results = before ++ own := by
  cases h : run.outcome <;> simp [h, Except.map, eq_comm]

/-- A run fails after others exactly if it does on its own, and in the same way. -/
theorem after_outcome_eq_error {earlier : List Message} {before : List β} {run : Run ε (List β)} {e : ε} :
    (run.after earlier before).outcome = .error e ↔ run.outcome = .error e := by
  cases h : run.outcome <;> simp [h, Except.map]

/-- A failure that a run does not come to after others is none that it comes to on its own. -/
theorem after_outcome_ne_error {earlier : List Message} {before : List β} {run : Run ε (List β)} {e : ε}
    (h : (run.after earlier before).outcome ≠ .error e) : run.outcome ≠ .error e :=
  mt after_outcome_eq_error.mpr h

/-- A sequence of two runs fails if the first one does, or the second one after it. -/
theorem bind_outcome_eq_error {first : Run ε α} {next : α → Run ε β} {e : ε}
    (h : (first >>= next).outcome = .error e) :
    first.outcome = .error e ∨ ∃ a, first.outcome = .ok a ∧ (next a).outcome = .error e := by
  cases hfirst : first.outcome with
  | error other =>
    rw [bind_of_error hfirst] at h
    exact .inl (by simpa using h)
  | ok a =>
    rw [bind_of_ok hfirst] at h
    exact .inr ⟨a, rfl, h⟩

/-- Runs that go on alike after every result of the first one are alike. -/
theorem bind_congr {first : Run ε α} {next other : α → Run ε β}
    (h : ∀ a, first.outcome = .ok a → next a = other a) : first >>= next = first >>= other := by
  cases hfirst : first.outcome with
  | error e => rw [bind_of_error hfirst, bind_of_error hfirst]
  | ok a => rw [bind_of_ok hfirst, bind_of_ok hfirst, h a hfirst]

/-- A run with a result has nothing to be caught. -/
theorem tryCatch_of_ok {run : Run ε α} {a : α} (h : run.outcome = .ok a) (handle : ε → Run ε α) :
    tryCatch run handle = run := by
  simp only [tryCatch, tryCatchThe, MonadExceptOf.tryCatch, h]

/-- A failure that is caught is handled after what was reported up to it. -/
theorem tryCatch_of_error {run : Run ε α} {e : ε} (h : run.outcome = .error e) (handle : ε → Run ε α) :
    tryCatch run handle = ⟨run.log ++ (handle e).log, (handle e).outcome⟩ := by
  simp only [tryCatch, tryCatchThe, MonadExceptOf.tryCatch, h]

/-- Results that are put after others come after them. -/
theorem bind_append (run : Run ε (List β)) (before : List β) :
    (run >>= fun more => pure (before ++ more)) = run.after [] before := by
  cases h : run.outcome with
  | ok more => simp [bind_of_ok h, after, h, Except.map]
  | error e => simp [bind_of_error h, after, h, Except.map]

/-- The first item is run before the others. -/
theorem gather_cons (run : α → Run ε (List β)) (a : α) (rest : List α) :
    gather run (a :: rest) = run a >>= fun before => gather run rest >>= fun more => pure (before ++ more) :=
  rfl

/-- Nothing to run reports nothing and has no results. -/
theorem gather_nil (run : α → Run ε (List β)) : gather run [] = pure [] := rfl

/-- The only item is all that is run. -/
theorem gather_singleton (run : α → Run ε (List β)) (a : α) : gather run [a] = run a := by
  simp [gather_cons, gather_nil]

/-- What is run for the images of items is run for the items. -/
theorem gather_map {γ : Type} (run : α → Run ε (List β)) (f : γ → α) (items : List γ) :
    gather run (items.map f) = gather (fun c => run (f c)) items := by
  induction items with
  | nil => rfl
  | cons c rest ih => rw [List.map_cons, gather_cons, gather_cons, ih]

/-- Items that are run alike one by one are run alike one after the other. -/
theorem gather_congr {run other : α → Run ε (List β)} {items : List α} (h : ∀ a ∈ items, run a = other a) :
    gather run items = gather other items := by
  induction items with
  | nil => rfl
  | cons a rest ih =>
    obtain ⟨hfirst, hrest⟩ := List.forall_mem_cons.mp h
    rw [gather_cons, gather_cons, hfirst, ih hrest]

/-- The first items are run before the others. -/
theorem gather_append (run : α → Run ε (List β)) (first second : List α) :
    gather run (first ++ second) =
      gather run first >>= fun before => gather run second >>= fun more => pure (before ++ more) := by
  induction first with
  | nil => simp [gather_nil]
  | cons a rest ih =>
    simp only [List.cons_append, gather_cons, ih, bind_assoc, pure_bind, List.append_assoc]

/-- Once the first items have results, the others come after them. -/
theorem gather_append_of_ok {run : α → Run ε (List β)} {first : List α} {before : List β}
    (h : (gather run first).outcome = .ok before) (second : List α) :
    gather run (first ++ second) = (gather run second).after (gather run first).log before := by
  rw [gather_append, bind_of_ok h, bind_append]
  rfl

/-- When the first items fail, nothing follows. -/
theorem gather_append_of_error {run : α → Run ε (List β)} {first : List α} {e : ε}
    (h : (gather run first).outcome = .error e) (second : List α) :
    gather run (first ++ second) = ⟨(gather run first).log, .error e⟩ := by
  rw [gather_append, bind_of_error h]

/-- Once the first item has results, the others come after it. -/
theorem gather_cons_of_ok {run : α → Run ε (List β)} {a : α} {before : List β}
    (h : (run a).outcome = .ok before) (rest : List α) :
    gather run (a :: rest) = (gather run rest).after (run a).log before := by
  rw [← gather_singleton run a] at h ⊢
  exact gather_append_of_ok h rest

/-- When the first item fails, nothing follows. -/
theorem gather_cons_of_error {run : α → Run ε (List β)} {a : α} {e : ε}
    (h : (run a).outcome = .error e) (rest : List α) : gather run (a :: rest) = ⟨(run a).log, .error e⟩ := by
  rw [← gather_singleton run a] at h ⊢
  exact gather_append_of_error h rest

/-- An item that runs as other items do may be replaced by them. -/
theorem gather_cons_of_eq_after {run : α → Run ε (List β)} {a : α} {earlier : List Message} {others : List α}
    (h : run a = (gather run others).after earlier []) (rest : List α) :
    gather run (a :: rest) = (gather run (others ++ rest)).after earlier [] := by
  rw [after_messages] at h
  cases hothers : (gather run others).outcome with
  | ok before =>
    have hown : (run a).outcome = .ok before := by rw [h, hothers]
    rw [gather_cons_of_ok hown, h, gather_append_of_ok hothers, after_after]
    rfl
  | error e =>
    have hown : (run a).outcome = .error e := by rw [h, hothers]
    rw [gather_cons_of_error hown, h, gather_append_of_error hothers, after_messages]

/-- Results for all items are results for each of them. -/
theorem exists_ok_of_mem_of_gather_eq_ok {run : α → Run ε (List β)} {items : List α} {results : List β}
    (h : (gather run items).outcome = .ok results) {a : α} (ha : a ∈ items) :
    ∃ own, (run a).outcome = .ok own := by
  induction items generalizing results with
  | nil => simp at ha
  | cons b rest ih =>
    cases hb : (run b).outcome with
    | error e => simp [gather_cons_of_error hb] at h
    | ok before =>
      rw [gather_cons_of_ok hb, after_outcome_eq_ok] at h
      obtain ⟨more, hrest, -⟩ := h
      rcases List.mem_cons.mp ha with rfl | ha
      · exact ⟨before, hb⟩
      · exact ih hrest ha

/-- Results for all items are the results for each of them, put together, and so are the messages. -/
theorem exists_parts_of_gather_eq_ok {run : α → Run ε (List β)} {items : List α} {results : List β}
    (h : (gather run items).outcome = .ok results) :
    ∃ parts : List (List β), items.map (fun a => (run a).outcome) = parts.map .ok ∧
      results = parts.flatten ∧ (gather run items).log = items.flatMap fun a => (run a).log := by
  induction items generalizing results with
  | nil =>
    obtain rfl : [] = results := Except.ok.inj h
    exact ⟨[], rfl, rfl, rfl⟩
  | cons a rest ih =>
    cases ha : (run a).outcome with
    | error e => simp [gather_cons_of_error ha] at h
    | ok before =>
      rw [gather_cons_of_ok ha] at h ⊢
      obtain ⟨more, hmore, rfl⟩ := after_outcome_eq_ok.mp h
      obtain ⟨parts, hparts, rfl, hlog⟩ := ih hmore
      exact ⟨before :: parts, by rw [List.map_cons, List.map_cons, ha, hparts], rfl, by
        rw [after_log, hlog, List.flatMap_cons]⟩

/-- The first result comes before the others. -/
theorem collect_cons (run : α → Run ε β) (a : α) (rest : List α) :
    collect run (a :: rest) = run a >>= fun b => collect run rest >>= fun bs => pure (b :: bs) := rfl

/-- Items that are run alike one by one have the same results. -/
theorem collect_congr {run other : α → Run ε β} {items : List α} (h : ∀ a ∈ items, run a = other a) :
    collect run items = collect other items := by
  induction items with
  | nil => rfl
  | cons a rest ih =>
    obtain ⟨hfirst, hrest⟩ := List.forall_mem_cons.mp h
    rw [collect_cons, collect_cons, hfirst, ih hrest]

/-- Running a computation for all items gives the results that it has for each. -/
theorem map_outcome_of_collect_eq_ok {run : α → Run ε β} {items : List α} {results : List β}
    (h : (collect run items).outcome = .ok results) :
    items.map (fun a => (run a).outcome) = results.map .ok := by
  induction items generalizing results with
  | nil =>
    obtain rfl : [] = results := Except.ok.inj h
    rfl
  | cons a rest ih =>
    rw [collect_cons] at h
    cases ha : (run a).outcome with
    | error e => simp [bind_of_error ha] at h
    | ok b =>
      cases hrest : (collect run rest).outcome with
      | error e => simp [bind_of_ok ha, bind_of_error hrest] at h
      | ok bs =>
        obtain rfl : b :: bs = results := by simpa [bind_of_ok ha, bind_of_ok hrest] using h
        rw [List.map_cons, List.map_cons, ha, ih hrest]

/-- It fails only as it does for one of them. -/
theorem exists_error_of_collect_eq_error {run : α → Run ε β} {items : List α} {e : ε}
    (h : (collect run items).outcome = .error e) : ∃ a ∈ items, (run a).outcome = .error e := by
  induction items with
  | nil => exact absurd h (by simp [collect, done])
  | cons a rest ih =>
    rw [collect_cons] at h
    rcases bind_outcome_eq_error h with ha | ⟨b, -, hrest⟩
    · exact ⟨a, List.mem_cons_self, ha⟩
    · rcases bind_outcome_eq_error hrest with hfails | ⟨bs, -, hpure⟩
      · obtain ⟨other, hother, he⟩ := ih hfails
        exact ⟨other, List.mem_cons_of_mem _ hother, he⟩
      · simp at hpure

/-- The result of a run that may have none. -/
def result? (run : Run ε (Option β)) : Option β := run.outcome.toOption.join

/-- Running a computation for all items succeeds exactly if it does for each, and has their results. -/
theorem collect_outcome_eq_ok_iff {run : α → Run ε (Option β)} {items : List α} {results : List (Option β)} :
    (collect run items).outcome = .ok results ↔
      (∀ a ∈ items, ∃ b, (run a).outcome = .ok b) ∧ results = items.map fun a => (run a).result? := by
  induction items generalizing results with
  | nil => simp [collect, done, eq_comm]
  | cons a rest ih =>
    rw [collect_cons]
    cases ha : (run a).outcome with
    | error e => simp [bind_of_error ha, ha]
    | ok b =>
      have hresult : (run a).result? = b := by rw [result?, ha]; rfl
      cases hrest : (collect run rest).outcome with
      | error e =>
        have hnone : ¬ ∀ a ∈ rest, ∃ b, (run a).outcome = .ok b := fun hall => by
          simp [ih.mpr ⟨hall, rfl⟩] at hrest
        simp [bind_of_ok ha, bind_of_error hrest, hnone]
      | ok bs =>
        obtain ⟨hall, rfl⟩ := ih.mp hrest
        rw [bind_of_ok ha, bind_of_ok hrest, List.map_cons, hresult]
        refine ⟨fun h => ?_, fun h => congrArg Except.ok h.2.symm⟩
        exact ⟨List.forall_mem_cons.mpr ⟨⟨b, ha⟩, hall⟩, (Except.ok.inj h).symm⟩

/-- What is made of the results of all items is there exactly if each item has a result. -/
theorem collect_bind_outcome_eq_ok_iff {γ : Type} {run : α → Run ε (Option β)} {items : List α}
    {make : List (Option β) → γ} {c : γ} :
    (collect run items >>= fun results => pure (make results)).outcome = .ok c ↔
      (∀ a ∈ items, ∃ b, (run a).outcome = .ok b) ∧ c = make (items.map fun a => (run a).result?) := by
  cases hcollect : (collect run items).outcome with
  | error e =>
    rw [bind_of_error hcollect]
    refine iff_of_false (by simp) fun h => ?_
    rw [collect_outcome_eq_ok_iff.mpr ⟨h.1, rfl⟩] at hcollect
    simp at hcollect
  | ok results =>
    obtain ⟨hall, rfl⟩ := collect_outcome_eq_ok_iff.mp hcollect
    rw [bind_of_ok hcollect]
    exact ⟨fun h => ⟨hall, (Except.ok.inj h).symm⟩, fun h => congrArg Except.ok h.2.symm⟩

end TestPlan.Run
