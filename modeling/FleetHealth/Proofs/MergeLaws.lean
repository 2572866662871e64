import Mathlib.Data.List.Forall2
import FleetHealth.Proofs.Merge
/-!
Laws of merging. Merged batches hold the first sample of every id, in the order in which the ids
first occur. What has been merged is not changed by merging it again, and of several batches it does
not matter which are merged first.
-/
namespace FleetHealth.Sample

/-- Where an id first occurs. -/
def firstPlace (xs : List Sample) (i : Int64) : Nat := xs.findIdx (fun x => x.id = i)

/-- The first sample of every id, in the order in which the ids first occur. -/
structure FirstOfEach (xs kept : List Sample) : Prop where
  distinct : (kept.map Sample.id).Nodup
  ids : ∀ i, i ∈ kept.map Sample.id ↔ i ∈ xs.map Sample.id
  first : ∀ s ∈ kept, xs.find? (fun x => x.id = s.id) = some s
  order : kept.Pairwise (fun a b => firstPlace xs a.id < firstPlace xs b.id)

/-- Samples of one id that may differ if a batch holds the id already. -/
def Alike (batch : List Sample) (a b : Sample) : Prop :=
  a.id = b.id ∧ (a = b ∨ a.id ∈ batch.map Sample.id)

section Places

variable {s x : Sample} {rest : List Sample}

theorem find?_cons_of_other (other : s.id ≠ x.id) :
    (s :: rest).find? (fun y => y.id = x.id) = rest.find? (fun y => y.id = x.id) :=
  List.find?_cons_of_neg (by simpa using other)

theorem firstPlace_cons_self (s : Sample) (rest : List Sample) :
    firstPlace (s :: rest) s.id = 0 := by
  simp [firstPlace, List.findIdx_cons]

theorem firstPlace_cons_of_other (other : s.id ≠ x.id) :
    firstPlace (s :: rest) x.id = firstPlace rest x.id + 1 := by
  simp [firstPlace, List.findIdx_cons, other]

end Places

section Kept

variable {seen : Std.TreeSet Int64} {xs : List Sample}

theorem mem_ids_merge_go {i : Int64} :
    i ∈ (merge.go seen xs).map Sample.id ↔ i ∉ seen ∧ i ∈ xs.map Sample.id := by
  induction xs generalizing seen with
  | nil => simp [merge.go]
  | cons s rest ih =>
    rw [merge.go, List.map_cons, List.mem_cons]
    by_cases old : s.id ∈ seen
    · rw [if_pos old, ih]
      refine and_congr_right (fun new => ?_)
      have other : i ≠ s.id := fun same => new (same ▸ old)
      simp [other]
    · rw [if_neg old, List.map_cons, List.mem_cons, ih, Std.TreeSet.mem_insert,
        Std.LawfulEqOrd.compare_eq_iff_eq]
      by_cases same : i = s.id
      · subst same
        simp [old]
      · simp [same, Ne.symm same]

theorem other_of_kept {s x : Sample} {rest : List Sample} (old : s.id ∈ seen)
    (kept : x ∈ merge.go seen rest) : s.id ≠ x.id := by
  intro same
  exact (merge_go_new seen rest).1 x kept (same ▸ old)

theorem find?_of_kept {s : Sample} (kept : s ∈ merge.go seen xs) :
    xs.find? (fun x => x.id = s.id) = some s := by
  induction xs generalizing seen with
  | nil => cases kept
  | cons x rest ih =>
    rw [merge.go] at kept
    split at kept
    · rename_i old
      rw [find?_cons_of_other (other_of_kept old kept), ih kept]
    · rcases List.mem_cons.mp kept with rfl | later
      · exact List.find?_cons_of_pos (decide_eq_true rfl)
      · rw [find?_cons_of_other (other_of_kept Std.TreeSet.mem_insert_self later), ih later]

theorem merge_go_order (seen : Std.TreeSet Int64) (xs : List Sample) :
    (merge.go seen xs).Pairwise (fun a b => firstPlace xs a.id < firstPlace xs b.id) := by
  induction xs generalizing seen with
  | nil => exact List.Pairwise.nil
  | cons s rest ih =>
    rw [merge.go]
    split
    · rename_i old
      refine (ih seen).imp_of_mem (fun {a b} kept kept' before => ?_)
      rw [firstPlace_cons_of_other (other_of_kept old kept),
        firstPlace_cons_of_other (other_of_kept old kept')]
      omega
    · have inserted : s.id ∈ seen.insert s.id := Std.TreeSet.mem_insert_self
      refine List.pairwise_cons.mpr ⟨fun b kept => ?_, ?_⟩
      · rw [firstPlace_cons_self, firstPlace_cons_of_other (other_of_kept inserted kept)]
        omega
      · refine (ih (seen.insert s.id)).imp_of_mem (fun {a b} kept kept' before => ?_)
        rw [firstPlace_cons_of_other (other_of_kept inserted kept),
          firstPlace_cons_of_other (other_of_kept inserted kept')]
        omega

theorem merge_go_sublist (seen : Std.TreeSet Int64) (xs : List Sample) :
    (merge.go seen xs).Sublist xs := by
  induction xs generalizing seen with
  | nil => exact List.Sublist.slnil
  | cons s rest ih =>
    rw [merge.go]
    split
    · exact (ih seen).cons s
    · exact (ih (seen.insert s.id)).cons_cons s

/-- What was kept of a list is kept again where no less has been seen. -/
theorem merge_go_merge_go {seen' : Std.TreeSet Int64} (more : ∀ i ∈ seen, i ∈ seen')
    (xs : List Sample) : merge.go seen' (merge.go seen xs) = merge.go seen' xs := by
  induction xs generalizing seen seen' with
  | nil => rfl
  | cons s rest ih =>
    by_cases old : s.id ∈ seen
    · rw [merge.go, if_pos old, ih more, merge.go, if_pos (more s.id old)]
    · rw [merge.go, if_neg old, merge.go, merge.go]
      by_cases old' : s.id ∈ seen'
      · have more' : ∀ i ∈ seen.insert s.id, i ∈ seen' := by
          intro i inside
          rw [Std.TreeSet.mem_insert, Std.LawfulEqOrd.compare_eq_iff_eq] at inside
          exact inside.elim (fun same => same ▸ old') (more i)
        rw [if_pos old', if_pos old', ih more']
      · have more' : ∀ i ∈ seen.insert s.id, i ∈ seen'.insert s.id := by
          intro i inside
          rw [Std.TreeSet.mem_insert] at inside ⊢
          exact inside.imp_right (more i)
        rw [if_neg old', if_neg old', ih more']

/-- Of a sample whose id has been seen only the id matters. -/
theorem merge_go_alike {ys : List Sample}
    (alike : List.Forall₂ (fun a b => a.id = b.id ∧ (a = b ∨ a.id ∈ seen)) xs ys) :
    merge.go seen xs = merge.go seen ys := by
  induction xs generalizing seen ys with
  | nil =>
    cases alike
    rfl
  | cons a xs ih =>
    obtain ⟨b, ys, ⟨same, agree⟩, rest, rfl⟩ := List.forall₂_cons_left_iff.mp alike
    by_cases old : a.id ∈ seen
    · rw [merge.go, if_pos old, merge.go, if_pos (same ▸ old), ih rest]
    · obtain rfl := agree.resolve_right old
      have rest' : List.Forall₂ (fun x y => x.id = y.id ∧ (x = y ∨ x.id ∈ seen.insert a.id)) xs ys :=
        rest.imp (fun _ _ h => ⟨h.1, h.2.imp_right (fun old => Std.TreeSet.mem_insert.mpr (.inr old))⟩)
      rw [merge.go, if_neg old, merge.go, if_neg old, ih rest']

end Kept

section Laws

variable (historical live more : List Sample)

theorem firstOfEach_merge : FirstOfEach (historical ++ live) (merge historical live) where
  distinct := merge_ids_nodup historical live
  ids := by
    intro i
    rw [merge, mem_ids_merge_go]
    exact and_iff_right Std.TreeSet.not_mem_emptyc
  first := fun _ kept => find?_of_kept kept
  order := merge_go_order ∅ (historical ++ live)

theorem merge_alike {live' : List Sample} (alike : List.Forall₂ (Alike historical) live live') :
    merge historical live = merge historical live' := by
  have seen : List.Forall₂ (fun a b => a.id = b.id ∧ (a = b ∨ a.id ∈ seenAfter ∅ historical))
      live live' :=
    alike.imp (fun _ _ h => ⟨h.1, h.2.imp_right (fun known => mem_seenAfter.mpr (.inr known))⟩)
  rw [merge, merge, merge_go_append, merge_go_append, merge_go_alike seen]

/-- Merging a merged batch with another keeps what merging all the samples keeps. -/
theorem merge_merge_left :
    merge (merge historical live) more = merge.go ∅ (historical ++ live ++ more) := by
  have ids : ∀ i, i ∈ seenAfter ∅ (merge historical live) ↔
      i ∈ seenAfter ∅ (historical ++ live) := by
    intro i
    rw [mem_seenAfter, mem_seenAfter, (firstOfEach_merge historical live).ids]
  calc merge (merge historical live) more
      = merge.go ∅ (merge.go ∅ (historical ++ live)) ++
          merge.go (seenAfter ∅ (merge historical live)) more := merge_go_append _ _ _
    _ = merge.go ∅ (historical ++ live) ++ merge.go (seenAfter ∅ (historical ++ live)) more := by
      rw [merge_go_merge_go (fun _ inside => inside), merge_go_congr ids]
    _ = merge.go ∅ (historical ++ live ++ more) := (merge_go_append _ _ _).symm

theorem merge_merge_right :
    merge historical (merge live more) = merge.go ∅ (historical ++ (live ++ more)) := by
  have more_seen : ∀ i ∈ (∅ : Std.TreeSet Int64), i ∈ seenAfter ∅ historical :=
    fun _ inside => absurd inside Std.TreeSet.not_mem_emptyc
  rw [merge, merge, merge_go_append, merge_go_merge_go more_seen, ← merge_go_append]

theorem merge_assoc :
    merge (merge historical live) more = merge historical (merge live more) := by
  rw [merge_merge_left, merge_merge_right, List.append_assoc]

theorem merge_again_right : merge (merge historical live) live = merge historical live := by
  have known : ∀ s ∈ live, s.id ∈ seenAfter ∅ (historical ++ live) :=
    fun s inside => mem_seenAfter.mpr
      (.inr (List.mem_map_of_mem (List.mem_append_right historical inside)))
  rw [merge_merge_left, merge_go_append, merge_go_of_seen known, List.append_nil, merge]

theorem merge_self : merge historical historical = merge historical [] := by
  rw [merge_eq_append, added_of_known (fun _ inside => List.mem_map_of_mem inside),
    List.append_nil]

theorem merge_again_left : merge historical (merge historical live) = merge historical live := by
  calc merge historical (merge historical live)
      = merge (merge historical []) live := by rw [← merge_assoc, merge_self]
    _ = merge historical (merge [] live) := merge_assoc historical [] live
    _ = merge historical live := merge_merge_right historical [] live

/-- Merged batches hold the first sample of every id and begin with those of the historical batch;
of a live sample whose id is historical nothing but the id matters. Merging either batch again
changes nothing, and three batches may be merged from either end. -/
theorem merge_laws :
    FirstOfEach (historical ++ live) (merge historical live) ∧
    (∃ kept new, merge historical live = kept ++ new ∧ FirstOfEach historical kept ∧
      kept.Sublist historical ∧ new.Sublist live) ∧
    (∀ live', List.Forall₂ (Alike historical) live live' →
      merge historical live = merge historical live') ∧
    merge (merge historical live) live = merge historical live ∧
    merge historical (merge historical live) = merge historical live ∧
    merge (merge historical live) more = merge historical (merge live more) := by
  have first := firstOfEach_merge historical []
  have kept := merge_go_sublist ∅ (historical ++ [])
  rw [List.append_nil] at first kept
  exact ⟨firstOfEach_merge historical live,
    ⟨merge historical [], added historical live, merge_eq_append historical live, first,
      by rwa [merge, List.append_nil], merge_go_sublist _ live⟩,
    fun _ alike => merge_alike historical live alike,
    merge_again_right historical live, merge_again_left historical live,
    merge_assoc historical live more⟩

end Laws

/- The id 2 occurs twice in one batch and in both, with different values each time. -/
theorem merge_laws_of_repeated_ids :
    let sample (i : Int64) (value : Float) := Sample.mk i "bs-1" .cpuLoad value none none
    let historical := [sample 2 40.0, sample 1 10.0, sample 2 50.0]
    let live := [sample 3 5.0, sample 2 95.0]
    let live' := [sample 3 5.0, Sample.mk 2 "bs-9" .uptime 0.0 none (some "s")]
    let more := [sample 3 6.0, sample 4 7.0]
    List.Forall₂ (Alike historical) live live' ∧
      merge historical live = merge historical live' ∧
      merge (merge historical live) more = merge historical (merge live more) := by
  intro sample historical live live' more
  have alike : List.Forall₂ (Alike historical) live live' :=
    .cons ⟨rfl, .inl rfl⟩ (.cons ⟨rfl, .inr (by decide)⟩ .nil)
  obtain ⟨_, _, unchanged, _, _, associates⟩ := merge_laws historical live more
  exact ⟨alike, unchanged live' alike, associates⟩

end FleetHealth.Sample
