import Std.Data.TreeMap
/-!
Maps filled by altering or inserting one entry per item. The entry of a key is what the items of
that key give alone, in their order, whatever stands between them; where items are added up it is
their sum. Values under their own keys come in the order of the keys. The groups of a list's items
under distinct keys are the list, reordered.
-/
namespace FleetHealth.KeyedFold

variable {κ α β : Type} {cmp : κ → κ → Ordering}

theorem getElem?_foldl_alter [Std.TransCmp cmp] [Std.LawfulEqCmp cmp] [DecidableEq κ] (key : α → κ)
    (f : Option β → α → Option β) (xs : List α) (k : κ) (m : Std.TreeMap κ β cmp) :
    (xs.foldl (fun m x => m.alter (key x) (fun b => f b x)) m)[k]? =
      (xs.filter (fun x => key x = k)).foldl f m[k]? := by
  induction xs generalizing m with
  | nil => rfl
  | cons x rest ih =>
    rw [List.foldl_cons, ih, Std.TreeMap.getElem?_alter]
    by_cases same : key x = k
    · subst same
      simp
    · have different : cmp (key x) k ≠ .eq := fun h => same (Std.LawfulEqCmp.eq_of_compare h)
      simp [same, different]

section Fill

variable (add : β → α → β) (empty : β)

/-- Each value is added to what its key has so far. -/
def fill (m : Std.TreeMap κ β cmp) (entries : List (κ × α)) : Std.TreeMap κ β cmp :=
  entries.foldl (fun m e => m.alter e.1 (fun b => some (add (b.getD empty) e.2))) m

theorem foldl_some (entries : List (κ × α)) (b : β) :
    entries.foldl (fun b e => some (add (b.getD empty) e.2)) (some b) =
      some ((entries.map Prod.snd).foldl add b) := by
  induction entries generalizing b with
  | nil => rfl
  | cons e rest ih => exact ih (add b e.2)

/-- A key has an entry exactly if some value falls under it. -/
theorem getElem?_fill [Std.TransCmp cmp] [Std.LawfulEqCmp cmp] [DecidableEq κ]
    (entries : List (κ × α)) (k : κ) (b : β) :
    (fill add empty (∅ : Std.TreeMap κ β cmp) entries)[k]? = some b ↔
      (entries.filter (fun e => e.1 = k)).map Prod.snd ≠ [] ∧
        b = ((entries.filter (fun e => e.1 = k)).map Prod.snd).foldl add empty := by
  have lookup := getElem?_foldl_alter Prod.fst
    (fun (b : Option β) (e : κ × α) => some (add (b.getD empty) e.2)) entries k
    (∅ : Std.TreeMap κ β cmp)
  rw [Std.TreeMap.getElem?_emptyc] at lookup
  rw [fill, lookup]
  cases entries.filter (fun e => e.1 = k) with
  | nil => simp
  | cons e rest =>
    rw [List.foldl_cons, Option.getD_none, foldl_some, Option.some.injEq, List.map_cons,
      List.foldl_cons]
    constructor
    · intro same
      exact ⟨List.cons_ne_nil _ _, same.symm⟩
    · intro h
      obtain ⟨_, same⟩ := h
      exact same.symm

end Fill

/-- Of the items inserted under one key the last stays. -/
theorem getElem?_foldl_insert [Std.TransCmp cmp] [Std.LawfulEqCmp cmp] [DecidableEq κ]
    (key : α → κ) (f : α → β) (xs : List α) (k : κ) (m : Std.TreeMap κ β cmp) :
    (xs.foldl (fun m x => m.insert (key x) (f x)) m)[k]? =
      ((xs.filter (fun x => key x = k)).getLast?.map f).or m[k]? := by
  induction xs generalizing m with
  | nil => rfl
  | cons x rest ih =>
    rw [List.foldl_cons, ih, Std.TreeMap.getElem?_insert]
    simp only [Std.LawfulEqCmp.compare_eq_iff_eq]
    by_cases same : key x = k
    · rw [List.filter_cons_of_pos (by simpa using same), List.getLast?_cons, if_pos same]
      cases (rest.filter (fun x => key x = k)).getLast? <;> rfl
    · rw [List.filter_cons_of_neg (by simpa using same), if_neg same]

/-- What holds of every entry of a map and of an inserted one holds of every entry after. -/
theorem forall_insert [Std.TransCmp cmp] [Std.LawfulEqCmp cmp] {p : κ → β → Prop}
    {m : Std.TreeMap κ β cmp} (old : ∀ (k : κ) (b : β), m[k]? = some b → p k b) {k : κ} {b : β}
    (new : p k b) (j : κ) (x : β) (found : (m.insert k b)[j]? = some x) : p j x := by
  rw [Std.TreeMap.getElem?_insert] at found
  split at found
  · rename_i same
    obtain rfl := Std.LawfulEqCmp.eq_of_compare same
    obtain rfl := Option.some.inj found
    exact new
  · exact old j x found

theorem distinct_toList [Std.TransCmp cmp] [Std.LawfulEqCmp cmp] (m : Std.TreeMap κ β cmp) :
    m.toList.Pairwise (fun a b => a.1 ≠ b.1) := by
  refine m.distinct_keys_toList.imp ?_
  intro a b apart same
  exact apart (Std.LawfulEqCmp.compare_eq_iff_eq.mpr same)

theorem values_eq_map_toList (m : Std.TreeMap κ β cmp) : m.values = m.toList.map Prod.snd := by
  have h : m.values = m.foldr (fun _ b rest => b :: rest) [] := rfl
  rw [h, Std.TreeMap.foldr_eq_foldr_toList]
  induction m.toList with
  | nil => rfl
  | cons e rest ih => simp [ih]

theorem mem_values [Std.TransCmp cmp] [Std.LawfulEqCmp cmp] {m : Std.TreeMap κ β cmp} {b : β} :
    b ∈ m.values ↔ ∃ k : κ, m[k]? = some b := by
  rw [values_eq_map_toList, List.mem_map]
  constructor
  · intro h
    obtain ⟨⟨k, _⟩, member, rfl⟩ := h
    exact ⟨k, Std.TreeMap.mem_toList_iff_getElem?_eq_some.mp member⟩
  · intro h
    obtain ⟨k, found⟩ := h
    exact ⟨⟨k, b⟩, Std.TreeMap.mem_toList_iff_getElem?_eq_some.mpr found, rfl⟩

section Keyed

variable [Std.TransCmp cmp] [Std.LawfulEqCmp cmp] {m : Std.TreeMap κ β cmp} {key : β → κ}

/-- Where every entry stands under its own key, an entry is a value if its key gives it. -/
theorem mem_values_of_keyed (keyed : ∀ (k : κ) (b : β), m[k]? = some b → key b = k) {b : β} :
    b ∈ m.values ↔ m[key b]? = some b := by
  rw [mem_values]
  constructor
  · intro h
    obtain ⟨k, found⟩ := h
    rw [keyed k b found]
    exact found
  · intro found
    exact ⟨key b, found⟩

theorem values_ascending_of_keyed (keyed : ∀ (k : κ) (b : β), m[k]? = some b → key b = k) :
    m.values.Pairwise (fun a b => cmp (key a) (key b) = .lt) := by
  rw [values_eq_map_toList, List.pairwise_map]
  refine m.ordered_keys_toList.imp_of_mem ?_
  intro a b ma mb before
  rw [keyed a.1 a.2 (Std.TreeMap.mem_toList_iff_getElem?_eq_some.mp ma),
    keyed b.1 b.2 (Std.TreeMap.mem_toList_iff_getElem?_eq_some.mp mb)]
  exact before

end Keyed

theorem ne_of_lt [Std.ReflCmp cmp] {j k : κ} (before : cmp j k = .lt) : j ≠ k := by
  rintro rfl
  have self : cmp j j = .eq := Std.ReflCmp.compare_self
  rw [self] at before
  cases before

/-- Nothing else in strictly ascending order has the key of a member. -/
theorem filter_key_of_ascending [Std.ReflCmp cmp] [DecidableEq κ] {key : α → κ} {xs : List α}
    (ascending : xs.Pairwise (fun a b => cmp (key a) (key b) = .lt)) {x : α} (member : x ∈ xs) :
    xs.filter (fun a => key a = key x) = [x] := by
  obtain ⟨front, rest, rfl⟩ := List.append_of_mem member
  obtain ⟨_, ascending, before⟩ := List.pairwise_append.mp ascending
  obtain ⟨after, _⟩ := List.pairwise_cons.mp ascending
  have no_earlier : front.filter (fun a => key a = key x) = [] := by
    rw [List.filter_eq_nil_iff]
    intro a inside same
    exact ne_of_lt (before a inside x List.mem_cons_self) (of_decide_eq_true same)
  have no_later : rest.filter (fun a => key a = key x) = [] := by
    rw [List.filter_eq_nil_iff]
    intro a inside same
    exact ne_of_lt (after a inside) (of_decide_eq_true same).symm
  rw [List.filter_append, List.filter_cons_of_pos (by simp), no_earlier, no_later]
  rfl

/-- Lists in strictly ascending order of a key are equal once they have the same members. -/
theorem eq_of_ascending [Std.TransCmp cmp] (key : α → κ) {xs ys : List α}
    (ascending_xs : xs.Pairwise (fun a b => cmp (key a) (key b) = .lt))
    (ascending_ys : ys.Pairwise (fun a b => cmp (key a) (key b) = .lt))
    (same : ∀ a, a ∈ xs ↔ a ∈ ys) : xs = ys := by
  have irreflexive : ∀ a b : α, cmp (key a) (key b) = .lt → a ≠ b :=
    fun a b before equal => ne_of_lt before (congrArg key equal)
  have perm : xs.Perm ys :=
    (List.perm_ext_iff_of_nodup (ascending_xs.imp (irreflexive _ _))
      (ascending_ys.imp (irreflexive _ _))).mpr same
  refine perm.eq_of_pairwise ?_ ascending_xs ascending_ys
  intro a b _ _ before after
  exact absurd after (Std.OrientedCmp.not_lt_of_lt before)

section Groups

variable [DecidableEq κ] (key : α → κ) {keys : List κ}

/-- Groups under distinct keys hold every item with such a key as often as the list. -/
theorem groups_perm_filter (distinct : keys.Nodup) (xs : List α) :
    (keys.flatMap (fun k => xs.filter (fun x => key x = k))).Perm
      (xs.filter (fun x => key x ∈ keys)) := by
  induction keys with
  | nil => simp
  | cons k keys ih =>
    obtain ⟨new, distinct⟩ := List.nodup_cons.mp distinct
    have own : (xs.filter (fun x => key x ∈ k :: keys)).filter (fun x => key x = k) =
        xs.filter (fun x => key x = k) := by
      rw [List.filter_filter]
      refine List.filter_congr fun x _ => ?_
      by_cases same : key x = k <;> simp [same]
    have others : (xs.filter (fun x => key x ∈ k :: keys)).filter (fun x => !decide (key x = k)) =
        xs.filter (fun x => key x ∈ keys) := by
      rw [List.filter_filter]
      refine List.filter_congr fun x _ => ?_
      by_cases same : key x = k <;> simp [same, new]
    rw [List.flatMap_cons, ← own]
    refine List.Perm.trans ?_ (List.filter_append_perm (fun x => decide (key x = k)) _)
    rw [others]
    exact (ih distinct).append_left _

theorem groups_perm (distinct : keys.Nodup) {xs : List α} (covered : ∀ x ∈ xs, key x ∈ keys) :
    (keys.flatMap (fun k => xs.filter (fun x => key x = k))).Perm xs := by
  have grouped := groups_perm_filter key distinct xs
  rwa [List.filter_eq_self.mpr fun x member => decide_eq_true (covered x member)] at grouped

end Groups

end FleetHealth.KeyedFold
