import FleetHealth.Proofs.JsonScalars
/-!
Trees in JSON. The text of a tree is read back as that tree when its numbers are, whole numbers
have 64 bits and containers do not nest too deeply.
-/
namespace FleetHealth.Tree.Json

/-- The text of that number is read as that number. -/
def ReadsBack (x : Float) : Prop := read? (print (.real x)) = some (.real x)

/-- Text shows all there is to the tree, whose containers nest at most that deeply. -/
inductive Legible : Nat → Tree → Prop where
  | null (n : Nat) : Legible n .null
  | bool (n : Nat) (b : Bool) : Legible n (.bool b)
  | int {k : Int} (n : Nat) (whole : IsWhole64 k) : Legible n (.int k)
  | real {x : Float} (n : Nat) (finite : x.isFinite = true) (back : ReadsBack x) :
    Legible n (.real x)
  | text (n : Nat) (s : String) : Legible n (.text s)
  | list {n : Nat} {items : List Tree} (each : ∀ t ∈ items, Legible n t) :
    Legible (n + 1) (.list items)
  | record {n : Nat} {members : List (String × Tree)} (each : ∀ e ∈ members, Legible n e.2) :
    Legible (n + 1) (.record members)

theorem Legible.mono {n m : Nat} {t : Tree} (legible : Legible n t) (more : n ≤ m) :
    Legible m t := by
  induction legible generalizing m with
  | null => exact .null m
  | bool _ b => exact .bool m b
  | int _ whole => exact .int m whole
  | real _ finite back => exact .real m finite back
  | text _ s => exact .text m s
  | list _ ih =>
    obtain ⟨m, rfl⟩ := Nat.exists_eq_succ_of_ne_zero (Nat.ne_zero_of_lt more)
    exact .list (fun t member => ih t member (Nat.le_of_succ_le_succ more))
  | record _ ih =>
    obtain ⟨m, rfl⟩ := Nat.exists_eq_succ_of_ne_zero (Nat.ne_zero_of_lt more)
    exact .record (fun e member => ih e member (Nat.le_of_succ_le_succ more))

section Reals

variable {x : Float} {rest : List Char}

theorem print_real (finite : x.isFinite = true) : print (.real x) = Decimal.notated x := by
  rw [print, if_pos finite]

/- The whole text was read, so what is left of it is blank; but no character of it is. -/
theorem ReadsBack.value? (back : ReadsBack x) (finite : x.isFinite = true) :
    ∃ fuel, value? (fuel + 1) 0 (Decimal.notated x) = some (.real x, []) := by
  rw [ReadsBack, print_real finite, read?] at back
  simp only [Option.bind_eq_bind, Option.bind_eq_some_iff, Option.ite_none_right_eq_some] at back
  obtain ⟨⟨t, rest⟩, read, blank, same⟩ := back
  cases same
  have numeric := notated_numeric x
  cases rest with
  | nil => exact ⟨_, read⟩
  | cons c rest =>
    have inside : c ∈ Decimal.notated x := (value?_suffix numeric read).subset List.mem_cons_self
    rw [skipSpace_cons rest (numeric c inside).not_space] at blank
    cases blank

theorem value?_real (fuel depth : Nat) (finite : x.isFinite = true) (back : ReadsBack x)
    (stops : StopsNumber rest) :
    Json.value? (fuel + 1) depth (print (.real x) ++ rest) = some (.real x, rest) := by
  obtain ⟨fuel', read⟩ := back.value? finite
  rw [print_real finite]
  exact value?_numeric_append fuel depth (notated_numeric x) stops read

theorem ReadsBack.notated_ne_nil (back : ReadsBack x) (finite : x.isFinite = true) :
    Decimal.notated x ≠ [] := by
  intro empty
  obtain ⟨fuel, read⟩ := back.value? finite
  rw [empty] at read
  cases read

end Reals

/-- No list and no record ends where this text starts. -/
def Opens (cs : List Char) : Prop := ∃ c cs', cs = c :: cs' ∧ isSpace c = false ∧ c ≠ ']'

theorem opens_of_numeric {cs : List Char} (numeric : ∀ c ∈ cs, IsNumeric c) (shown : cs ≠ []) :
    Opens cs := by
  obtain ⟨c, cs', rfl⟩ := List.exists_cons_of_ne_nil shown
  have first := numeric c List.mem_cons_self
  refine ⟨c, cs', rfl, first.not_space, ?_⟩
  rintro rfl
  exact absurd first (by decide)

theorem signed_ne_nil (n : Int) : Decimal.signed n ≠ [] := by
  unfold Decimal.signed
  split
  · exact List.cons_ne_nil _ _
  · exact Decimal.digits_ne_nil _

theorem Legible.opens {n : Nat} {t : Tree} (legible : Legible n t) : Opens (print t) := by
  cases legible with
  | null => exact ⟨_, _, rfl, by decide⟩
  | bool _ b => cases b <;> exact ⟨_, _, rfl, by decide⟩
  | @int k => exact opens_of_numeric (signed_numeric k) (signed_ne_nil k)
  | @real x _ finite back =>
    rw [print_real finite]
    exact opens_of_numeric (notated_numeric x) (back.notated_ne_nil finite)
  | text => exact ⟨_, _, rfl, by decide⟩
  | list => exact ⟨_, _, rfl, by decide⟩
  | record => exact ⟨_, _, rfl, by decide⟩

/-- Wherever it stands, the text of the tree is read as the tree. -/
def Restores (n : Nat) (t : Tree) : Prop :=
  ∀ fuel depth rest, (print t).length < fuel → depth + n ≤ maxDepth → StopsNumber rest →
    value? fuel depth (print t ++ rest) = some (t, rest)

section Containers

variable {n fuel depth : Nat} {rest : List Char}

theorem stopsNumber_comma (rest : List Char) : StopsNumber (',' :: rest) :=
  stopsNumber_cons rest (by decide) (by decide) (by decide) (by decide)

theorem stopsNumber_bracket (rest : List Char) : StopsNumber (']' :: rest) :=
  stopsNumber_cons rest (by decide) (by decide) (by decide) (by decide)

theorem stopsNumber_brace (rest : List Char) : StopsNumber ('\x7d' :: rest) :=
  stopsNumber_cons rest (by decide) (by decide) (by decide) (by decide)

theorem printText_append (s : String) (rest : List Char) :
    printText s ++ rest = '"' :: (s.toList.flatMap escape ++ '"' :: rest) := by
  simp [printText]

theorem printItems_cons (t u : Tree) (items : List Tree) :
    printItems (t :: u :: items) = print t ++ ',' :: printItems (u :: items) := by
  rw [printItems]
  exact List.cons_ne_nil u items

theorem printMembers_cons (name : String) (t : Tree) (e : String × Tree)
    (members : List (String × Tree)) :
    printMembers ((name, t) :: e :: members) =
      printText name ++ ':' :: (print t ++ ',' :: printMembers (e :: members)) := by
  rw [printMembers]
  exact List.cons_ne_nil e members

theorem opens_printItems {items : List Tree} (opens : ∀ t ∈ items, Opens (print t))
    (some_item : items ≠ []) : Opens (printItems items) := by
  obtain ⟨t, items, rfl⟩ := List.exists_cons_of_ne_nil some_item
  obtain ⟨c, cs, first, solid⟩ := opens t List.mem_cons_self
  cases items with
  | nil => exact ⟨c, cs, first, solid⟩
  | cons u items =>
    refine ⟨c, cs ++ ',' :: printItems (u :: items), ?_, solid⟩
    rw [printItems_cons, first]
    rfl

theorem printMembers_quoted {members : List (String × Tree)} (some_member : members ≠ []) :
    ∃ cs, printMembers members = '"' :: cs := by
  obtain ⟨⟨name, t⟩, members, rfl⟩ := List.exists_cons_of_ne_nil some_member
  cases members with
  | nil =>
    rw [printMembers, printText_append]
    exact ⟨_, rfl⟩
  | cons e members =>
    rw [printMembers_cons, printText_append]
    exact ⟨_, rfl⟩

theorem items?_printItems {items : List Tree} (some_item : items ≠ [])
    (each : ∀ t ∈ items, Restores n t) (enough : (printItems items).length + 1 < fuel)
    (within : depth + n ≤ maxDepth) :
    items? fuel depth (printItems items ++ ']' :: rest) = some (items, rest) := by
  induction items generalizing fuel with
  | nil => exact absurd rfl some_item
  | cons t items ih =>
    obtain ⟨fuel, rfl⟩ := Nat.exists_eq_succ_of_ne_zero (Nat.ne_zero_of_lt enough)
    have first : Restores n t := each t List.mem_cons_self
    cases items with
    | nil =>
      rw [printItems] at enough ⊢
      rw [items?, first fuel depth _ (by omega) within (stopsNumber_bracket rest)]
      simp only [Option.bind_eq_bind, Option.bind_some, skipSpace_cons rest (c := ']') rfl]
    | cons u items =>
      have more : ∀ t ∈ u :: items, Restores n t := fun t member => each t (.tail _ member)
      rw [printItems_cons, List.length_append, List.length_cons] at enough
      have later : items? fuel depth (printItems (u :: items) ++ ']' :: rest) =
          some (u :: items, rest) := ih (List.cons_ne_nil u items) more (by omega)
      rw [printItems_cons, List.append_assoc, List.cons_append, items?,
        first fuel depth _ (by omega) within (stopsNumber_comma _)]
      simp only [Option.bind_eq_bind, Option.bind_some, skipSpace_cons _ (c := ',') rfl, later,
        Option.map_some]

theorem members?_printMembers {members : List (String × Tree)} (some_member : members ≠ [])
    (each : ∀ e ∈ members, Restores n e.2) (enough : (printMembers members).length + 1 < fuel)
    (within : depth + n ≤ maxDepth) :
    members? fuel depth (printMembers members ++ '\x7d' :: rest) = some (some members, rest) := by
  induction members generalizing fuel with
  | nil => exact absurd rfl some_member
  | cons e members ih =>
    obtain ⟨fuel, rfl⟩ := Nat.exists_eq_succ_of_ne_zero (Nat.ne_zero_of_lt enough)
    obtain ⟨name, t⟩ := e
    have first : Restores n t := each (name, t) List.mem_cons_self
    cases members with
    | nil =>
      rw [printMembers, List.length_append, List.length_cons] at enough
      rw [printMembers, List.append_assoc, List.cons_append, printText_append, members?,
        skipSpace_cons _ (c := '"') rfl]
      simp only [string?_text, skipSpace_cons _ (c := ':') rfl, Option.bind_eq_bind,
        Option.bind_some, first fuel depth _ (by omega) within (stopsNumber_brace rest),
        skipSpace_cons _ (c := '\x7d') rfl]
      rfl
    | cons e' members =>
      have more : ∀ e ∈ e' :: members, Restores n e.2 := fun e member => each e (.tail _ member)
      rw [printMembers_cons, List.length_append, List.length_cons, List.length_append,
        List.length_cons] at enough
      have later : members? fuel depth (printMembers (e' :: members) ++ '\x7d' :: rest) =
          some (some (e' :: members), rest) := ih (List.cons_ne_nil e' members) more (by omega)
      rw [printMembers_cons, List.append_assoc, List.cons_append, List.append_assoc,
        List.cons_append, printText_append, members?, skipSpace_cons _ (c := '"') rfl]
      simp only [string?_text, skipSpace_cons _ (c := ':') rfl, Option.bind_eq_bind,
        Option.bind_some, first fuel depth _ (by omega) within (stopsNumber_comma _),
        skipSpace_cons _ (c := ',') rfl, later]
      rfl

end Containers

section Trees

variable {n : Nat}

theorem restores_list {items : List Tree} (opens : ∀ t ∈ items, Opens (print t))
    (each : ∀ t ∈ items, Restores n t) : Restores (n + 1) (.list items) := by
  intro fuel depth rest enough within stops
  obtain ⟨fuel, rfl⟩ := Nat.exists_eq_succ_of_ne_zero (Nat.ne_zero_of_lt enough)
  have shallow : depth < maxDepth := by omega
  rw [print, List.length_cons, List.length_append, List.length_singleton] at enough
  rw [print, List.cons_append, List.append_assoc, List.singleton_append, value?,
    skipSpace_cons _ (c := '[') rfl]
  by_cases some_item : items = []
  · subst some_item
    simp only [printItems, List.nil_append, skipSpace_cons rest (c := ']') rfl, if_pos shallow]
  · have read : items? fuel (depth + 1) (printItems items ++ ']' :: rest) = some (items, rest) :=
      items?_printItems some_item each (by omega) (by omega)
    obtain ⟨c, cs, first, solid, open_list⟩ := opens_printItems opens some_item
    rw [first, List.cons_append] at read ⊢
    simp only [skipSpace_cons _ solid]
    split
    case h_1 same =>
      cases same
      exact absurd rfl open_list
    case h_2 => simp only [read, Option.map_some, if_pos shallow]

theorem restores_record {members : List (String × Tree)} (each : ∀ e ∈ members, Restores n e.2) :
    Restores (n + 1) (.record members) := by
  intro fuel depth rest enough within stops
  obtain ⟨fuel, rfl⟩ := Nat.exists_eq_succ_of_ne_zero (Nat.ne_zero_of_lt enough)
  have shallow : depth < maxDepth := by omega
  rw [print, List.length_cons, List.length_append, List.length_singleton] at enough
  rw [print, List.cons_append, List.append_assoc, List.singleton_append, value?,
    skipSpace_cons _ (c := '\x7b') rfl]
  by_cases some_member : members = []
  · subst some_member
    simp only [printMembers, List.nil_append, skipSpace_cons rest (c := '\x7d') rfl,
      if_pos shallow]
  · have read : members? fuel (depth + 1) (printMembers members ++ '\x7d' :: rest) =
        some (some members, rest) :=
      members?_printMembers some_member each (by omega) (by omega)
    obtain ⟨cs, first⟩ := printMembers_quoted some_member
    rw [first, List.cons_append] at read ⊢
    simp only [skipSpace_cons _ (c := '"') rfl]
    split
    case h_1 same => cases same
    case h_2 => simp only [read, Option.map_some, if_pos shallow, Option.getD_some]

theorem restores_scalar {t : Tree} (read : ∀ fuel depth rest, StopsNumber rest →
    value? (fuel + 1) depth (print t ++ rest) = some (t, rest)) : Restores n t := by
  intro fuel depth rest enough _ stops
  obtain ⟨fuel, rfl⟩ := Nat.exists_eq_succ_of_ne_zero (Nat.ne_zero_of_lt enough)
  exact read fuel depth rest stops

theorem Legible.restores {t : Tree} (legible : Legible n t) : Restores n t := by
  induction legible with
  | null => exact restores_scalar fun _ _ _ _ => rfl
  | bool _ b => cases b <;> exact restores_scalar fun _ _ _ _ => rfl
  | int _ whole => exact restores_scalar fun fuel depth _ => value?_signed fuel depth whole
  | real _ finite back =>
    exact restores_scalar fun fuel depth _ => value?_real fuel depth finite back
  | text _ s =>
    refine restores_scalar fun fuel depth rest _ => ?_
    rw [print, printText_append, value?, skipSpace_cons _ (c := '"') rfl]
    simp only [string?_text, Option.map_some, Option.getD_some]
  | list each ih => exact restores_list (fun t member => (each t member).opens) ih
  | record each ih => exact restores_record ih

theorem read?_print {t : Tree} (legible : Legible maxDepth t) : read? (print t) = some t := by
  have read := legible.restores (2 * (print t).length + 2) 0 [] (by omega)
    (Nat.le_of_eq (Nat.zero_add maxDepth)) stopsNumber_nil
  rw [List.append_nil] at read
  rw [read?, read]
  rfl

end Trees

end FleetHealth.Tree.Json
