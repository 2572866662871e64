import FleetHealth.Proofs.CalendarText
import FleetHealth.Proofs.JsonText
import FleetHealth.Tree.Shape
/-!
Formats of documents. A format writes values as trees and reads them back, and says where in the
document each number of a value stands. In a faithful format the only thing that can be lost on
the way is a number that is not finite, in whose place stands null.

The lemmas on leaves and records are rewriting rules: with them `simp` reads a record whose fields
have distinct names, field by field, once it is known which optional members are there.
-/
namespace FleetHealth

namespace Tree

inductive Step where
  | member (name : String)
  | item (index : Nat)
  deriving DecidableEq, Repr

def step? (t : Tree) : Step → Option Tree
  | .member name => t.member? name
  | .item index =>
    match t with
    | list items => items[index]?
    | _ => none

/-- The part of a document at the end of a path. -/
def at? (t : Tree) : List Step → Option Tree
  | [] => some t
  | s :: path => (t.step? s).bind (fun part => part.at? path)

end Tree

/-- A number of a value and the path to it in the value's document. -/
structure Place where
  path : List Tree.Step
  number : Float

namespace Place

def under (s : Tree.Step) (p : Place) : Place := ⟨s :: p.path, p.number⟩

/-- The places of a member, given the places inside it. -/
def ofMember (name : String) (ps : List Place) : List Place := ps.map (under (.member name))

/-- The places of a list, given the places inside each item. -/
def ofItems {α : Type} (places : α → List Place) (items : List α) : List Place :=
  items.zipIdx.flatMap (fun e => (places e.1).map (under (.item e.2)))

def single (name : String) (x : Float) : Place := ⟨[.member name], x⟩

end Place

/-- All numbers among these are of that kind. -/
def Numbers (P : Float → Prop) (ps : List Place) : Prop := ∀ p ∈ ps, P p.number

section Numbers

variable {P : Float → Prop} {α : Type}

@[simp]
theorem numbers_nil : Numbers P [] := by simp [Numbers]

@[simp]
theorem numbers_single (name : String) (x : Float) (ps : List Place) :
    Numbers P (Place.single name x :: ps) ↔ P x ∧ Numbers P ps := by
  simp [Numbers, Place.single]

@[simp]
theorem numbers_append (ps qs : List Place) :
    Numbers P (ps ++ qs) ↔ Numbers P ps ∧ Numbers P qs := by
  simp [Numbers, or_imp, forall_and]

@[simp]
theorem numbers_ofMember (name : String) (ps : List Place) :
    Numbers P (Place.ofMember name ps) ↔ Numbers P ps := by
  simp [Numbers, Place.ofMember, Place.under]

@[simp]
theorem numbers_flatMap_toList (places : α → List Place) (o : Option α) :
    Numbers P (o.toList.flatMap places) ↔ ∀ a, o = some a → Numbers P (places a) := by
  cases o <;> simp

@[simp]
theorem numbers_ofItems (places : α → List Place) (items : List α) :
    Numbers P (Place.ofItems places items) ↔ ∀ a ∈ items, Numbers P (places a) := by
  simp only [Numbers, Place.ofItems, List.mem_flatMap, List.mem_map]
  constructor
  · intro all a member p inside
    obtain ⟨i, found⟩ := List.getElem?_of_mem member
    exact all (p.under (.item i))
      ⟨(a, i), List.mem_zipIdx_iff_getElem?.mpr found, p, inside, rfl⟩
  · rintro all _ ⟨⟨a, i⟩, member, p, inside, rfl⟩
    exact all a (List.mem_of_getElem? (List.mem_zipIdx_iff_getElem?.mp member)) p inside

end Numbers

/-- At each place stands its number, or null if it is not finite. -/
def Shows (t : Tree) (ps : List Place) : Prop :=
  ∀ p ∈ ps, t.at? p.path = some (Tree.ofFloat p.number)

section Shows

variable {α : Type} {t : Tree} {ps qs : List Place}

@[simp]
theorem shows_nil (t : Tree) : Shows t [] := by simp [Shows]

@[simp]
theorem shows_single {name : String} {x : Float} :
    Shows t (Place.single name x :: ps) ↔ t.member? name = some (.ofFloat x) ∧ Shows t ps := by
  simp [Shows, Place.single, Tree.at?, Tree.step?]

@[simp]
theorem shows_append : Shows t (ps ++ qs) ↔ Shows t ps ∧ Shows t qs := by
  simp [Shows, or_imp, forall_and]

/-- Likewise, if there is such a part at all. -/
def ShowsIn (part : Option Tree) (ps : List Place) : Prop := ∃ t, part = some t ∧ Shows t ps

@[simp]
theorem showsIn_some : ShowsIn (some t) ps ↔ Shows t ps := by simp [ShowsIn]

@[simp]
theorem shows_ofMember {name : String} (inside : ShowsIn (t.member? name) ps) :
    Shows t (Place.ofMember name ps) := by
  obtain ⟨part, found, inside⟩ := inside
  intro p member
  obtain ⟨p, inner, rfl⟩ := List.mem_map.mp member
  simp only [Place.under, Tree.at?, Tree.step?, found, Option.bind_some]
  exact inside p inner

theorem shows_ofItems {toTree : α → Tree} {places : α → List Place} (items : List α)
    (each : ∀ a, Shows (toTree a) (places a)) :
    Shows (.list (items.map toTree)) (Place.ofItems places items) := by
  intro p member
  obtain ⟨⟨a, i⟩, found, placed⟩ := List.mem_flatMap.mp member
  obtain ⟨p, inner, rfl⟩ := List.mem_map.mp placed
  have item : items[i]? = some a := List.mem_zipIdx_iff_getElem?.mp found
  simp only [Place.under, Tree.at?, Tree.step?, List.getElem?_map, item, Option.map_some,
    Option.bind_some]
  exact each a p inner

end Shows

/-- The text of that number is read as that number, if it has one. -/
def IsPrintable (x : Float) : Prop := x.isFinite = true → Tree.Json.ReadsBack x

namespace Tree

section Leaves

open Json

variable {depth : Nat} {α : Type}

@[simp]
theorem float?_ofFloat {x y : Float} :
    (Tree.ofFloat x).float? = some y ↔ x.isFinite = true ∧ x = y := by
  unfold Tree.ofFloat
  split <;> simp [*, Tree.float?]

@[simp]
theorem text?_text (s : String) : (Tree.text s).text? = some s := rfl

@[simp]
theorem bool?_bool (b : Bool) : (Tree.bool b).bool? = some b := rfl

@[simp]
theorem isReadable_ofFloat (x : Float) : (ofFloat x).isReadable = true := by
  unfold ofFloat
  split <;> rfl

theorem intWithin?_int {n low high : Int} (lower : low ≤ n) (upper : n ≤ high) :
    (Tree.int n).intWithin? low high = some n := if_pos ⟨lower, upper⟩

theorem count?_ofNat {n : Nat} (bound : n < UInt64.size) : (Tree.ofNat n).count? 64 = some n := by
  have upper : (n : Int) ≤ (Nat.pow 2 64 : Int) - 1 := by
    have : n < Nat.pow 2 64 := bound
    omega
  rw [count?, ofNat, intWithin?_int (Int.natCast_nonneg n) upper]
  rfl

@[simp]
theorem uint32?_toNat (n : UInt32) : (Tree.ofNat n.toNat).uint32? = some n := by
  have upper : (n.toNat : Int) ≤ (Nat.pow 2 32 : Int) - 1 := by
    have : n.toNat < Nat.pow 2 32 := n.toNat_lt
    omega
  rw [uint32?, count?, ofNat, intWithin?_int (Int.natCast_nonneg _) upper]
  simp

@[simp]
theorem int64?_toInt (n : Int64) : (Tree.int n.toInt).int64? = some n := by
  rw [int64?, intWithin?_int n.minValue_le_toInt (Int.le_of_lt_add_one n.toInt_lt)]
  simp

/- What is lost is lost as a whole: one item that cannot be read back is enough. -/
theorem mapM_written {β : Type} {read? : β → Option α} {write : α → β} {P : α → Prop}
    {xs ys : List α} (each : ∀ x ∈ xs, ∀ y, read? (write x) = some y ↔ P x ∧ x = y) :
    (xs.map write).mapM read? = some ys ↔ (∀ x ∈ xs, P x) ∧ xs = ys := by
  induction xs generalizing ys with
  | nil => simp [eq_comm]
  | cons x xs ih =>
    have first := each x List.mem_cons_self
    have later := fun ys => @ih ys (fun x member => each x (.tail _ member))
    simp only [List.map_cons, List.mapM_cons, Option.bind_eq_bind, Option.bind_eq_some_iff, first,
      later, List.forall_mem_cons, Option.pure_def, Option.some.injEq]
    constructor
    · rintro ⟨_, ⟨here, rfl⟩, _, ⟨there, rfl⟩, rfl⟩
      exact ⟨⟨here, there⟩, rfl⟩
    · rintro ⟨⟨here, there⟩, rfl⟩
      exact ⟨x, ⟨here, rfl⟩, xs, ⟨there, rfl⟩, rfl⟩

@[simp]
theorem legible_text (s : String) : Legible depth (.text s) := .text depth s

@[simp]
theorem legible_bool (b : Bool) : Legible depth (.bool b) := .bool depth b

@[simp]
theorem legible_ofFloat {x : Float} (printable : IsPrintable x) :
    Legible depth (Tree.ofFloat x) := by
  unfold Tree.ofFloat
  split
  case isTrue finite => exact .real depth finite (printable finite)
  case isFalse => exact .null depth

@[simp]
theorem legible_ofNat {n : Nat} (bound : n < UInt64.size) : Legible depth (Tree.ofNat n) :=
  .int depth ⟨Int.le_trans (by decide) (Int.natCast_nonneg n), by exact_mod_cast bound⟩

@[simp]
theorem legible_uint32 (n : UInt32) : Legible depth (Tree.ofNat n.toNat) :=
  legible_ofNat (Nat.lt_trans n.toNat_lt (by decide))

@[simp]
theorem legible_int64 (n : Int64) : Legible depth (.int n.toInt) :=
  .int depth ⟨n.minValue_le_toInt, Int.lt_trans n.toInt_lt (by decide)⟩

@[simp]
theorem legible_ofOption {toTree : α → Tree} {a : Option α} :
    Legible depth (ofOption (a.map toTree)) ↔ ∀ b, a = some b → Legible depth (toTree b) := by
  cases a with
  | none => simp [ofOption, Legible.null depth]
  | some a => simp [ofOption]

/-- Members that make a legible record. -/
def LegibleMembers (depth : Nat) (members : List (String × Tree)) : Prop :=
  ∀ e ∈ members, Legible depth e.2

theorem LegibleMembers.record {members : List (String × Tree)}
    (legible : LegibleMembers depth members) : Legible (depth + 1) (.record members) :=
  .record legible

@[simp]
theorem legibleMembers_nil : LegibleMembers depth [] := by simp [LegibleMembers]

@[simp]
theorem legibleMembers_cons {name : String} {t : Tree} {members : List (String × Tree)} :
    LegibleMembers depth ((name, t) :: members) ↔
      Legible depth t ∧ LegibleMembers depth members := by
  simp [LegibleMembers]

@[simp]
theorem legibleMembers_append {members more : List (String × Tree)} :
    LegibleMembers depth (members ++ more) ↔
      LegibleMembers depth members ∧ LegibleMembers depth more := by
  simp [LegibleMembers, or_imp, forall_and]

@[simp]
theorem legibleMembers_optionalMember {name : String} {toTree : α → Tree} {a : Option α} :
    LegibleMembers depth (optionalMember name (a.map toTree)) ↔
      ∀ b, a = some b → Legible depth (toTree b) := by
  cases a with
  | none => simp [LegibleMembers, optionalMember]
  | some a => simp [LegibleMembers, optionalMember]

end Leaves

section Records

variable {names : List String} {members : List (String × Tree)}

theorem membersNamed_of_nodup (distinct : (members.map Prod.fst).Nodup) (name : String) :
    membersNamed name members = (members.lookup name).toList := by
  induction members with
  | nil => rfl
  | cons e members ih =>
    obtain ⟨first, t⟩ := e
    rw [List.map_cons, List.nodup_cons] at distinct
    have later := ih distinct.2
    by_cases same : first = name
    · subst same
      have absent : membersNamed first members = [] := by
        simp only [membersNamed, List.map_eq_nil_iff, List.filter_eq_nil_iff, decide_eq_true_eq]
        intro e member name
        exact distinct.1 (List.mem_map.mpr ⟨e, member, name⟩)
      simpa [membersNamed, List.lookup_cons] using absent
    · have other : (name == first) = false := by simpa using Ne.symm same
      rw [List.lookup_cons, other, ← later]
      simp [membersNamed, same]

theorem lookup_of_mem {name : String} {t : Tree} (distinct : (members.map Prod.fst).Nodup)
    (member : (name, t) ∈ members) : members.lookup name = some t := by
  have named : t ∈ membersNamed name members :=
    List.mem_map.mpr ⟨(name, t), List.mem_filter.mpr ⟨member, decide_eq_true rfl⟩, rfl⟩
  rw [membersNamed_of_nodup distinct, Option.mem_toList] at named
  exact named

@[simp]
theorem single?_of_nodup (distinct : (members.map Prod.fst).Nodup) (name : String) :
    single? name members = some (members.lookup name) := by
  rw [single?, membersNamed_of_nodup distinct]
  cases members.lookup name <;> rfl

/-- Fields whose names differ are found by name. -/
@[simp]
theorem recordFields?_of_nodup (distinct : (members.map Prod.fst).Nodup) :
    recordFields? names members =
      some (fun name => if name ∈ names then members.lookup name else none) := by
  simp [recordFields?, single?_of_nodup distinct]

@[simp]
theorem fields?_record (names : List String) (members : List (String × Tree)) :
    (Tree.record members).fields? names = recordFields? names members := rfl

@[simp]
theorem required?_eq {α : Type} (fields : Table String Tree) (name : String)
    (read? : Tree → Option α) : required? fields name read? = (fields name).bind read? := rfl

@[simp]
theorem member?_record (members : List (String × Tree)) (name : String) :
    (Tree.record members).member? name = members.lookup name := rfl

@[simp]
theorem optionalMember_none (name : String) : optionalMember name none = [] := rfl

@[simp]
theorem optionalMember_some (name : String) (t : Tree) :
    optionalMember name (some t) = [(name, t)] := rfl

@[simp]
theorem ofOption_none : ofOption none = null := rfl

@[simp]
theorem ofOption_some (t : Tree) : ofOption (some t) = t := rfl

/-- Reads what may be null. -/
def nullable? {α : Type} (read? : Tree → Option α) : Tree → Option (Option α)
  | null => some none
  | t => (read? t).map some

@[simp]
theorem nullable?_null {α : Type} (read? : Tree → Option α) : nullable? read? null = some none := rfl

theorem nullable?_of_ne_null {α : Type} (read? : Tree → Option α) {t : Tree} (shown : t ≠ null) :
    nullable? read? t = (read? t).map some := by
  rw [nullable?]
  exact shown

@[simp]
theorem optional?_eq {α : Type} (fields : Table String Tree) (name : String)
    (read? : Tree → Option α) :
    optional? fields name read? = ((fields name).map (nullable? read?)).getD (some none) := by
  unfold optional?
  split
  case h_1 absent => rw [absent]; rfl
  case h_2 empty => rw [empty]; rfl
  case h_3 t shown found =>
    rw [found, Option.map_some, Option.getD_some, nullable?_of_ne_null]
    rintro rfl
    exact shown rfl

@[simp]
theorem nullable?_text (s : String) : nullable? text? (text s) = some (some s) := rfl

end Records

end Tree

/-- How values of a type are written and read. -/
structure Format (α : Type) where
  toTree : α → Tree
  ofTree? : Tree → Option α
  /-- The numbers of a value. -/
  places : α → List Place
  /-- The counts of a value have 64 bits. -/
  Counted : α → Prop

namespace Format

variable {α : Type}

def encode (F : Format α) (v : α) : List Char := Tree.Json.print (F.toTree v)

def decode? (F : Format α) (text : List Char) : Option α := (Tree.Json.read? text).bind F.ofTree?

/-- The format of values without numbers or counts of their own. -/
def plain (toTree : α → Tree) (ofTree? : Tree → Option α) : Format α :=
  ⟨toTree, ofTree?, fun _ => [], fun _ => True⟩

/-- A format whose documents nest at most that deeply and keep all but the numbers that are not
finite. -/
structure Faithful (F : Format α) (depth : Nat) : Prop where
  legible : ∀ v, F.Counted v → Numbers IsPrintable (F.places v) →
    Tree.Json.Legible depth (F.toTree v)
  shown : ∀ v, Shows (F.toTree v) (F.places v)
  undone : ∀ v u, F.Counted v →
    (F.ofTree? (F.toTree v) = some u ↔ Numbers (·.isFinite = true) (F.places v) ∧ v = u)

namespace Faithful

variable {F : Format α} {depth : Nat} {v : α}

theorem mono {more : Nat} (faithful : F.Faithful depth) (le : depth ≤ more) : F.Faithful more where
  legible v counted printable := (faithful.legible v counted printable).mono le
  shown := faithful.shown
  undone := faithful.undone

theorem plain {toTree : α → Tree} {ofTree? : Tree → Option α}
    (legible : ∀ v, Tree.Json.Legible depth (toTree v))
    (undone : ∀ v, ofTree? (toTree v) = some v) : (Format.plain toTree ofTree?).Faithful depth where
  legible v _ _ := legible v
  shown v := shows_nil (toTree v)
  undone v u _ := by simp [Format.plain, undone]

theorem read?_encode (faithful : F.Faithful Tree.Json.maxDepth) (counted : F.Counted v)
    (printable : Numbers IsPrintable (F.places v)) :
    Tree.Json.read? (F.encode v) = some (F.toTree v) :=
  Tree.Json.read?_print (faithful.legible v counted printable)

theorem decode?_encode_eq_some_iff {u : α} (faithful : F.Faithful Tree.Json.maxDepth)
    (counted : F.Counted v) (printable : Numbers IsPrintable (F.places v)) :
    F.decode? (F.encode v) = some u ↔ Numbers (·.isFinite = true) (F.places v) ∧ v = u := by
  rw [decode?, faithful.read?_encode counted printable, Option.bind_some]
  exact faithful.undone v u counted

theorem legible_list {vs : List α} (faithful : F.Faithful depth) (counted : ∀ v ∈ vs, F.Counted v)
    (printable : ∀ v ∈ vs, Numbers IsPrintable (F.places v)) :
    Tree.Json.Legible (depth + 1) (.list (vs.map F.toTree)) := by
  refine .list fun t member => ?_
  obtain ⟨v, inside, rfl⟩ := List.mem_map.mp member
  exact faithful.legible v (counted v inside) (printable v inside)

theorem list?_map {vs us : List α} (faithful : F.Faithful depth) (counted : ∀ v ∈ vs, F.Counted v) :
    (Tree.list (vs.map F.toTree)).list? F.ofTree? = some us ↔
      (∀ v ∈ vs, Numbers (·.isFinite = true) (F.places v)) ∧ vs = us :=
  Tree.mapM_written fun v inside u => faithful.undone v u (counted v inside)

end Faithful
end Format

end FleetHealth
