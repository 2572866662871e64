import Mathlib.Data.List.Forall2
/-!
Steps that may fail, one after another. A run succeeds exactly if each of its steps does, and keeps
what each of them keeps.
-/
namespace FleetHealth

variable {ε σ α : Type}

theorem bind_eq_ok_iff {check : Except ε Unit} {next : Except ε Unit} :
    (check >>= fun _ => next) = .ok () ↔ check = .ok () ∧ next = .ok () := by
  cases check with
  | error e =>
    constructor
    · intro h
      cases h
    · intro h
      obtain ⟨h, _⟩ := h
      cases h
  | ok u => exact ⟨fun h => ⟨rfl, h⟩, fun h => h.2⟩

theorem forM_eq_ok_iff {check : α → Except ε Unit} {xs : List α} :
    xs.forM check = .ok () ↔ ∀ x ∈ xs, check x = .ok () := by
  induction xs with
  | nil => exact ⟨fun _ _ inside => absurd inside List.not_mem_nil, fun _ => rfl⟩
  | cons x rest ih =>
    have step : (x :: rest).forM check = (check x >>= fun _ => rest.forM check) := rfl
    rw [step, bind_eq_ok_iff, ih, List.forall_mem_cons]

theorem discard_eq_ok_iff {x : Except ε α} :
    (discard x : Except ε Unit) = .ok () ↔ ∃ a, x = .ok a := by
  cases x with
  | error e =>
    constructor
    · intro h
      cases h
    · intro h
      obtain ⟨a, h⟩ := h
      cases h
  | ok a => exact ⟨fun _ => ⟨a, rfl⟩, fun _ => rfl⟩

theorem mapError_eq_ok {φ : Type} {f : ε → φ} {x : Except ε Unit} (passed : x.mapError f = .ok ()) :
    x = .ok () := by
  cases x with
  | error e => cases passed
  | ok u => rfl

theorem foldlM_ok_keeps {f : σ → α → Except ε σ} {keep : σ → Prop} {xs : List α}
    (step : ∀ a ∈ xs, ∀ s t, keep s → f s a = .ok t → keep t) {s t : σ} (start : keep s)
    (run : xs.foldlM f s = .ok t) : keep t := by
  induction xs generalizing s with
  | nil =>
    have same : s = t := Except.ok.inj run
    exact same ▸ start
  | cons a rest ih =>
    rw [List.foldlM_cons] at run
    cases first : f s a with
    | error e => rw [first] at run; cases run
    | ok u =>
      rw [first] at run
      exact ih (fun b member => step b (List.mem_cons_of_mem a member))
        (step a List.mem_cons_self s u start first) run

theorem mapM_ok {f : α → Except ε σ} {g : α → σ} {xs : List α} (each : ∀ a ∈ xs, f a = .ok (g a)) :
    xs.mapM f = .ok (xs.map g) := by
  induction xs with
  | nil => rfl
  | cons a rest ih =>
    rw [List.mapM_cons, each a List.mem_cons_self,
      ih (fun b member => each b (List.mem_cons_of_mem a member))]
    rfl

theorem mapM_eq_ok_iff {f : α → Except ε σ} {xs : List α} {ys : List σ} :
    xs.mapM f = .ok ys ↔ List.Forall₂ (fun a b => f a = .ok b) xs ys := by
  induction xs generalizing ys with
  | nil =>
    rw [List.forall₂_nil_left_iff]
    exact ⟨fun h => (Except.ok.inj h).symm, fun h => h ▸ rfl⟩
  | cons a rest ih =>
    rw [List.mapM_cons, List.forall₂_cons_left_iff]
    cases first : f a with
    | error e =>
      constructor
      · intro h
        cases h
      · intro h
        obtain ⟨_, _, h, _⟩ := h
        cases h
    | ok b =>
      cases later : rest.mapM f with
      | error e =>
        constructor
        · intro h
          cases h
        · intro h
          obtain ⟨_, bs, _, answers, _⟩ := h
          rw [ih.mpr answers] at later
          cases later
      | ok bs =>
        have answers := ih.mp later
        constructor
        · intro h
          exact ⟨b, bs, rfl, answers, (Except.ok.inj h).symm⟩
        · intro h
          obtain ⟨_, cs, same, answers', rfl⟩ := h
          have tails : bs = cs := Except.ok.inj (later.symm.trans (ih.mpr answers'))
          rw [Except.ok.inj same, tails]
          rfl

/-- A run that succeeds has the answer of each of its steps. -/
theorem exists_answer {f : α → Except ε σ} {xs : List α} {ys : List σ} (run : xs.mapM f = .ok ys)
    {a : α} (listed : a ∈ xs) : ∃ b ∈ ys, f a = .ok b := by
  have answers := mapM_eq_ok_iff.mp run
  clear run
  induction answers with
  | nil => cases listed
  | cons first _ ih =>
    rcases List.mem_cons.mp listed with rfl | later
    · exact ⟨_, List.mem_cons_self, first⟩
    · obtain ⟨b, inside, answer⟩ := ih later
      exact ⟨b, List.mem_cons_of_mem _ inside, answer⟩

/-- A run over a list fails exactly if one of its steps does. -/
theorem mapM_fails_iff {f : α → Except ε σ} {xs : List α} :
    (∃ e, xs.mapM f = .error e) ↔ ∃ a ∈ xs, ∃ e, f a = .error e := by
  induction xs with
  | nil =>
    constructor
    · intro h
      obtain ⟨e, h⟩ := h
      cases h
    · intro h
      obtain ⟨a, inside, _⟩ := h
      cases inside
  | cons a rest ih =>
    rw [List.mapM_cons, List.exists_mem_cons_iff, ← ih]
    cases f a with
    | error e => exact ⟨fun _ => .inl ⟨e, rfl⟩, fun _ => ⟨e, rfl⟩⟩
    | ok b =>
      cases rest.mapM f with
      | error e => exact ⟨fun _ => .inr ⟨e, rfl⟩, fun _ => ⟨e, rfl⟩⟩
      | ok bs =>
        constructor
        · intro h
          obtain ⟨_, h⟩ := h
          cases h
        · intro h
          rcases h with ⟨_, h⟩ | ⟨_, h⟩ <;> cases h

end FleetHealth
