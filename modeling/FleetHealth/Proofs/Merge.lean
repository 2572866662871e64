import FleetHealth.Sample
/-!
Merging batches by id. Samples whose ids are new are kept as they come; once an id has been seen,
no later sample of it is kept.
-/
namespace FleetHealth.Sample

def seenAfter (seen : Std.TreeSet Int64) (xs : List Sample) : Std.TreeSet Int64 :=
  xs.foldl (fun seen s => seen.insert s.id) seen

theorem mem_seenAfter {seen : Std.TreeSet Int64} {xs : List Sample} {i : Int64} :
    i ∈ seenAfter seen xs ↔ i ∈ seen ∨ i ∈ xs.map Sample.id := by
  induction xs generalizing seen with
  | nil => simp [seenAfter]
  | cons s rest ih =>
    show i ∈ seenAfter (seen.insert s.id) rest ↔ _
    rw [ih, Std.TreeSet.mem_insert, Std.LawfulEqOrd.compare_eq_iff_eq]
    simp only [List.map_cons, List.mem_cons]
    constructor
    · intro h
      rcases h with (rfl | old) | later
      · exact .inr (.inl rfl)
      · exact .inl old
      · exact .inr (.inr later)
    · intro h
      rcases h with old | rfl | later
      · exact .inl (.inr old)
      · exact .inl (.inl rfl)
      · exact .inr later

theorem merge_go_of_new {seen : Std.TreeSet Int64} {xs : List Sample} (rest : List Sample)
    (distinct : (xs.map Sample.id).Nodup) (new : ∀ s ∈ xs, s.id ∉ seen) :
    merge.go seen (xs ++ rest) = xs ++ merge.go (seenAfter seen xs) rest := by
  induction xs generalizing seen with
  | nil => rfl
  | cons s xs ih =>
    obtain ⟨apart, distinct⟩ := List.nodup_cons.mp distinct
    have first : s.id ∉ seen := new s List.mem_cons_self
    have new' : ∀ x ∈ xs, x.id ∉ seen.insert s.id := by
      intro x member
      rw [Std.TreeSet.mem_insert, Std.LawfulEqOrd.compare_eq_iff_eq]
      intro h
      rcases h with same | old
      · exact apart (same ▸ List.mem_map_of_mem member)
      · exact new x (List.mem_cons_of_mem s member) old
    rw [List.cons_append, merge.go, if_neg first, ih distinct new']
    rfl

theorem merge_go_of_seen {seen : Std.TreeSet Int64} {xs : List Sample}
    (old : ∀ s ∈ xs, s.id ∈ seen) : merge.go seen xs = [] := by
  induction xs with
  | nil => rfl
  | cons s xs ih =>
    rw [merge.go, if_pos (old s List.mem_cons_self)]
    exact ih (fun x member => old x (List.mem_cons_of_mem s member))

/-- What is kept has not been seen, and no id twice. -/
theorem merge_go_new (seen : Std.TreeSet Int64) (xs : List Sample) :
    (∀ s ∈ merge.go seen xs, s.id ∉ seen) ∧ ((merge.go seen xs).map Sample.id).Nodup := by
  induction xs generalizing seen with
  | nil => exact ⟨fun _ inside => absurd inside List.not_mem_nil, List.nodup_nil⟩
  | cons s rest ih =>
    unfold merge.go
    split
    · exact ih seen
    · rename_i new
      obtain ⟨fresh, distinct⟩ := ih (seen.insert s.id)
      simp only [Std.TreeSet.mem_insert, Std.LawfulEqOrd.compare_eq_iff_eq, not_or] at fresh
      constructor
      · intro x inside
        rcases List.mem_cons.mp inside with rfl | later
        · exact new
        · exact (fresh x later).2
      · rw [List.map_cons, List.nodup_cons]
        refine ⟨?_, distinct⟩
        intro again
        obtain ⟨x, later, same⟩ := List.mem_map.mp again
        exact (fresh x later).1 same.symm

theorem merge_ids_nodup (historical live : List Sample) :
    ((merge historical live).map Sample.id).Nodup :=
  (merge_go_new ∅ (historical ++ live)).2

theorem merge_go_of_distinct {seen : Std.TreeSet Int64} {xs : List Sample}
    (distinct : (xs.map Sample.id).Nodup) :
    merge.go seen xs = xs.filter (fun s => s.id ∉ seen) := by
  induction xs generalizing seen with
  | nil => rfl
  | cons s rest ih =>
    obtain ⟨apart, distinct⟩ := List.nodup_cons.mp distinct
    unfold merge.go
    split
    · rename_i old
      rw [ih distinct, List.filter_cons_of_neg (by simpa using old)]
    · rename_i new
      rw [ih distinct, List.filter_cons_of_pos (by simpa using new)]
      congr 1
      refine List.filter_congr (fun x later => ?_)
      have other : s.id ≠ x.id := fun same => apart (same ▸ List.mem_map_of_mem later)
      simp [Std.TreeSet.mem_insert, other]

/-- Of two batches without repeated ids the first is kept whole, and of the second what is new. -/
theorem merge_of_distinct {historical live : List Sample}
    (distinct : (historical.map Sample.id).Nodup) (distinct' : (live.map Sample.id).Nodup) :
    merge historical live =
      historical ++ live.filter (fun s => s.id ∉ historical.map Sample.id) := by
  rw [merge, merge_go_of_new live distinct (fun s _ => Std.TreeSet.not_mem_emptyc),
    merge_go_of_distinct distinct']
  congr 1
  refine List.filter_congr (fun s _ => ?_)
  simp [mem_seenAfter]

theorem merge_of_known {historical live : List Sample}
    (distinct : (historical.map Sample.id).Nodup)
    (known : ∀ s ∈ live, s.id ∈ historical.map Sample.id) : merge historical live = historical := by
  have old : ∀ s ∈ live, s.id ∈ seenAfter ∅ historical :=
    fun s member => mem_seenAfter.mpr (.inr (known s member))
  rw [merge, merge_go_of_new live distinct (fun s _ => Std.TreeSet.not_mem_emptyc),
    merge_go_of_seen old, List.append_nil]

theorem merge_go_congr {seen seen' : Std.TreeSet Int64} (same : ∀ i, i ∈ seen ↔ i ∈ seen')
    (xs : List Sample) : merge.go seen xs = merge.go seen' xs := by
  induction xs generalizing seen seen' with
  | nil => rfl
  | cons s rest ih =>
    rw [merge.go, merge.go]
    by_cases old : s.id ∈ seen
    · rw [if_pos old, if_pos ((same s.id).mp old), ih same]
    · rw [if_neg old, if_neg (fun old' => old ((same s.id).mpr old'))]
      refine congrArg (s :: ·) (ih (fun i => ?_))
      rw [Std.TreeSet.mem_insert, Std.TreeSet.mem_insert, same]

theorem merge_go_append (seen : Std.TreeSet Int64) (xs rest : List Sample) :
    merge.go seen (xs ++ rest) = merge.go seen xs ++ merge.go (seenAfter seen xs) rest := by
  induction xs generalizing seen with
  | nil => rfl
  | cons s xs ih =>
    have step : seenAfter seen (s :: xs) = seenAfter (seen.insert s.id) xs := rfl
    rw [List.cons_append, merge.go, merge.go]
    by_cases old : s.id ∈ seen
    · rw [if_pos old, if_pos old, ih]
      refine congrArg (merge.go seen xs ++ ·) (merge_go_congr (fun i => ?_) rest)
      -- the id inserted again is one of those seen
      rw [step, mem_seenAfter, mem_seenAfter, Std.TreeSet.mem_insert,
        Std.LawfulEqOrd.compare_eq_iff_eq]
      constructor
      · intro h
        exact h.imp_left .inr
      · intro h
        rcases h with (rfl | seen) | inside
        · exact .inl old
        · exact .inl seen
        · exact .inr inside
    · rw [if_neg old, if_neg old, ih, step, List.cons_append]

/-- What a live batch adds to a historical one. -/
def added (historical live : List Sample) : List Sample := merge.go (seenAfter ∅ historical) live

theorem merge_eq_append (historical live : List Sample) :
    merge historical live = merge historical [] ++ added historical live := by
  rw [merge, merge, List.append_nil]
  exact merge_go_append ∅ historical live

theorem added_of_known {historical live : List Sample}
    (known : ∀ s ∈ live, s.id ∈ historical.map Sample.id) : added historical live = [] :=
  merge_go_of_seen (fun s inside => mem_seenAfter.mpr (.inr (known s inside)))

end FleetHealth.Sample
