import Mathlib.Data.List.Forall2
import FleetHealth.Proofs.WireFormats
/-!
Names as they are compared. A text folds to a name exactly if it spells the name: blanks around it
aside, each character is the name's or the ASCII capital of it. Of the readers of metric names the
one of documents knows a name only as written, the others in every spelling; where they differ, the
text is a spelling other than the name itself.
-/
namespace FleetHealth

namespace Text

section Trimming

variable {before core after cs : List Char}

def AllBlank (cs : List Char) : Prop := ∀ c ∈ cs, isBlank c = true

/-- No blank stands at either end. -/
def Bare (cs : List Char) : Prop :=
  (∀ c ∈ cs.head?, isBlank c = false) ∧ ∀ c ∈ cs.getLast?, isBlank c = false

theorem bare_of_not_blank (shown : ∀ c ∈ cs, isBlank c = false) : Bare cs := by
  constructor
  · exact fun c first => shown c (List.mem_of_head? first)
  · exact fun c last => shown c (List.mem_of_getLast? last)

theorem skipBlank_append (blank : AllBlank before) (cs : List Char) :
    skipBlank (before ++ cs) = skipBlank cs :=
  List.dropWhile_append_of_pos blank

theorem skipBlank_of_head (first : ∀ c ∈ cs.head?, isBlank c = false) : skipBlank cs = cs := by
  cases cs with
  | nil => rfl
  | cons c cs =>
    exact Date.skipBlank_cons cs (first c rfl)

theorem trim_of_bare (bare : Bare core) (leading : AllBlank before) (trailing : AllBlank after) :
    trim (before ++ (core ++ after)) = core := by
  obtain ⟨first, last⟩ := bare
  rw [trim, skipBlank_append leading]
  cases core with
  | nil =>
    have nothing : skipBlank after = [] := List.dropWhile_eq_nil_iff.mpr trailing
    rw [List.nil_append, nothing]
    rfl
  | cons c core =>
    have kept : skipBlank (c :: core ++ after) = c :: core ++ after := skipBlank_of_head first
    have turned : AllBlank after.reverse := fun d member => trailing d (List.mem_reverse.mp member)
    rw [kept, List.reverse_append, skipBlank_append turned, skipBlank_of_head]
    · exact List.reverse_reverse _
    · rwa [List.head?_reverse]

/-- Trimming takes off blanks only. -/
theorem exists_trimmed (cs : List Char) :
    ∃ before after, cs = before ++ (trim cs ++ after) ∧ AllBlank before ∧ AllBlank after := by
  refine ⟨cs.takeWhile isBlank, ((skipBlank cs).reverse.takeWhile isBlank).reverse, ?_, ?_, ?_⟩
  · have inner : trim cs ++ ((skipBlank cs).reverse.takeWhile isBlank).reverse = skipBlank cs := by
      rw [trim, ← List.reverse_append]
      exact (congrArg List.reverse List.takeWhile_append_dropWhile).trans (List.reverse_reverse _)
    rw [inner]
    exact List.takeWhile_append_dropWhile.symm
  · exact fun c member => List.mem_takeWhile_imp member
  · exact fun c member => List.mem_takeWhile_imp (List.mem_reverse.mp member)

end Trimming

section Case

variable {c d : Char}

/-- The character itself, or the ASCII capital of it. -/
def Writes (c d : Char) : Prop := c = d ∨ 'A' ≤ c ∧ c ≤ 'Z' ∧ d.toNat = c.toNat + 32

theorem isUpper_iff : c.isUpper = true ↔ 'A' ≤ c ∧ c ≤ 'Z' := decide_eq_true_iff

theorem toNat_toLower (capital : c.isUpper = true) : c.toLower.toNat = c.toNat + 32 := by
  have range := isUpper_iff.mp capital
  have lowered : c.toLower.val = c.val + 32 := congrArg Char.val (dif_pos range)
  have high : c.val.toNat ≤ 90 := range.2
  have sum : (c.val + 32).toNat = (c.val.toNat + 32) % 2 ^ 32 := UInt32.toNat_add c.val 32
  show c.toLower.val.toNat = c.val.toNat + 32
  rw [lowered, sum]
  omega

theorem toLower_of_not_isUpper (other : ¬c.isUpper = true) : c.toLower = c :=
  dif_neg (fun range => other (isUpper_iff.mpr range))

theorem toLower_eq_iff (small : d.isUpper = false) : c.toLower = d ↔ Writes c d := by
  by_cases capital : c.isUpper = true
  · obtain ⟨low, high⟩ := isUpper_iff.mp capital
    constructor
    · rintro rfl
      exact .inr ⟨low, high, toNat_toLower capital⟩
    · intro h
      rcases h with rfl | ⟨_, _, same⟩
      · exact absurd capital (by simp [small])
      · rw [← Char.toNat_inj, toNat_toLower capital, same]
  · rw [toLower_of_not_isUpper capital]
    constructor
    · exact .inl
    · intro h
      rcases h with same | ⟨low, high, _⟩
      · exact same
      · exact absurd (isUpper_iff.mpr ⟨low, high⟩) capital

theorem isBlank_toLower (c : Char) : isBlank c.toLower = isBlank c := by
  by_cases capital : c.isUpper = true
  · have lowered := toNat_toLower capital
    obtain ⟨low, high⟩ := isUpper_iff.mp capital
    have low : 65 ≤ c.toNat := low
    have high : c.toNat ≤ 90 := high
    rw [Bool.eq_iff_iff]
    simp only [isBlank, lowered, Bool.or_eq_true, Bool.and_eq_true, decide_eq_true_eq]
    omega
  · rw [toLower_of_not_isUpper capital]

theorem bare_lower {cs : List Char} : Bare (lower cs) ↔ Bare cs := by
  simp only [Bare, lower, List.head?_map, List.getLast?_map, Option.mem_map, forall_exists_index,
    and_imp, forall_apply_eq_imp_iff₂, isBlank_toLower]

end Case

/-- The text is the name but for blanks around it and capitals in it. -/
def Spells (s name : String) : Prop :=
  ∃ before middle after, s.toList = before ++ (middle ++ after) ∧ AllBlank before ∧
    AllBlank after ∧ List.Forall₂ Writes middle name.toList

/-- Neither a blank nor a capital. -/
def isPlain (c : Char) : Bool := !isBlank c && !c.isUpper

section Folding

variable {s name : String}

theorem lower_eq_iff {cs ds : List Char} (small : ∀ d ∈ ds, d.isUpper = false) :
    lower cs = ds ↔ List.Forall₂ Writes cs ds := by
  induction cs generalizing ds with
  | nil =>
    rw [List.forall₂_nil_left_iff]
    exact eq_comm
  | cons c cs ih =>
    cases ds with
    | nil => exact ⟨nofun, nofun⟩
    | cons d ds =>
      rw [List.forall_mem_cons] at small
      rw [List.forall₂_cons, ← toLower_eq_iff small.1, ← ih small.2, lower, List.map_cons,
        List.cons.injEq, lower]

/-- A name without blanks and capitals is what its spellings fold to, and they alone. -/
theorem fold_eq_iff_spells (plain : ∀ d ∈ name.toList, isPlain d = true) :
    fold s = name ↔ Spells s name := by
  simp only [isPlain, Bool.and_eq_true, Bool.not_eq_true'] at plain
  have bare : Bare name.toList := bare_of_not_blank fun d member => (plain d member).1
  have small : ∀ d ∈ name.toList, d.isUpper = false := fun d member => (plain d member).2
  rw [fold, ← String.toList_inj, String.toList_ofList]
  constructor
  · intro folded
    obtain ⟨before, after, whole, leading, trailing⟩ := exists_trimmed s.toList
    exact ⟨before, trim s.toList, after, whole, leading, trailing, (lower_eq_iff small).mp folded⟩
  · intro h
    obtain ⟨before, middle, after, whole, leading, trailing, written⟩ := h
    have lowered : lower middle = name.toList := (lower_eq_iff small).mpr written
    have inner : Bare middle := bare_lower.mp (lowered ▸ bare)
    rw [whole, trim_of_bare inner leading trailing, lowered]

end Folding

end Text

namespace Metric

section Readers

variable {s : String} {m : Metric}

theorem name_plain (m : Metric) : ∀ d ∈ m.name.toList, Text.isPlain d = true := by
  have all : m.name.toList.all Text.isPlain = true := by cases m <;> decide +kernel
  exact List.all_eq_true.mp all

theorem fold_eq_name_iff : Text.fold s = m.name ↔ Text.Spells s m.name :=
  Text.fold_eq_iff_spells m.name_plain

theorem find?_name_eq_some_iff :
    known.find? (fun m => m.name = s) = some m ↔ m ∈ known ∧ s = m.name := by
  constructor
  · intro found
    have named : m.name = s := by simpa using List.find?_some found
    exact ⟨List.mem_of_find?_eq_some found, named.symm⟩
  · intro h
    obtain ⟨member, rfl⟩ := h
    cases found : known.find? (fun n => n.name = m.name) with
    | none => exact absurd (decide_eq_true rfl) (List.find?_eq_none.mp found m member)
    | some n =>
      have named : n.name = m.name := by simpa using List.find?_some found
      rw [name_injective named]

theorem parse_eq_ok_iff : parse s = .ok m ↔ m ∈ known ∧ Text.fold s = m.name := by
  rw [← find?_name_eq_some_iff, parse]
  cases known.find? (fun m => m.name = Text.fold s) <;> simp

theorem text_of_parse_eq_error {e : UnknownMetric} (failed : parse s = .error e) : e.text = s := by
  unfold parse at failed
  split at failed
  · cases failed
  · rw [← Except.error.inj failed]

/-- What fails is every other text, and the error has it as it was given. -/
theorem parse_eq_error_iff {e : UnknownMetric} :
    parse s = .error e ↔ e.text = s ∧ ∀ m ∈ known, Text.fold s ≠ m.name := by
  constructor
  · intro failed
    refine ⟨text_of_parse_eq_error failed, fun m member folded => ?_⟩
    rw [parse_eq_ok_iff.mpr ⟨member, folded⟩] at failed
    cases failed
  · intro h
    obtain ⟨given, unnamed⟩ := h
    cases answer : parse s with
    | ok m =>
      obtain ⟨member, folded⟩ := parse_eq_ok_iff.mp answer
      exact absurd folded (unnamed m member)
    | error f =>
      have same : f.text = e.text := (text_of_parse_eq_error answer).trans given.symm
      cases e
      cases f
      dsimp only at same
      rw [same]

theorem ofText_eq_getD (s : String) : ofText s = (parse s).toOption.getD unknown := by
  unfold ofText
  cases parse s <;> rfl

theorem ofText_eq_iff (member : m ∈ known) : ofText s = m ↔ Text.fold s = m.name := by
  have proper : m ≠ unknown := (mem_known_iff m).mp member
  have named : Text.fold s = m.name ↔ parse s = .ok m := by
    rw [parse_eq_ok_iff, and_iff_right member]
  rw [named, ofText_eq_getD]
  cases parse s with
  | ok n => simp [Except.toOption]
  | error e => simpa [Except.toOption] using proper.symm

theorem ofName_eq_iff (member : m ∈ known) : ofName s = m ↔ s = m.name := by
  have proper : m ≠ unknown := (mem_known_iff m).mp member
  rw [ofName, ← and_iff_right (a := m ∈ known) (b := s = m.name) member, ← find?_name_eq_some_iff]
  cases known.find? (fun m => m.name = s) with
  | none => simpa using proper.symm
  | some n => simp

theorem ofText_of_ofName (member : m ∈ known) (exact_name : ofName s = m) : ofText s = m := by
  rw [(ofName_eq_iff member).mp exact_name, ofText_name]

/-- The readers differ on the spellings of known names other than the names themselves. -/
theorem ofName_ne_ofText_iff : ofName s ≠ ofText s ↔
    ofName s = unknown ∧ ∃ m ∈ known, s ≠ m.name ∧ Text.Spells s m.name := by
  constructor
  · intro differ
    have unread : ofName s = unknown := by
      by_contra proper
      exact differ (ofText_of_ofName ((mem_known_iff _).mpr proper) rfl).symm
    have member : ofText s ∈ known :=
      (mem_known_iff _).mpr fun same => differ (unread.trans same.symm)
    refine ⟨unread, ofText s, member, fun written => ?_, ?_⟩
    · exact differ ((ofName_eq_iff member).mpr written)
    · exact fold_eq_name_iff.mp ((ofText_eq_iff member).mp rfl)
  · intro h same
    obtain ⟨unread, m, member, _, spelled⟩ := h
    have read : ofText s = m := (ofText_eq_iff member).mpr (fold_eq_name_iff.mpr spelled)
    exact (mem_known_iff m).mp member (read.symm.trans (same.symm.trans unread))

end Readers

/-- One text as `parse`, `ofText` and the reader of documents read it. -/
theorem readers_agree (s : String) :
    (∀ m, parse s = .ok m ↔ m ∈ known ∧ Text.fold s = m.name) ∧
    (∀ m : Metric, Text.fold s = m.name ↔ Text.Spells s m.name) ∧
    (∀ m n : Metric, Text.fold s = m.name → Text.fold s = n.name → m = n) ∧
    (∀ e, parse s = .error e ↔ e.text = s ∧ ∀ m ∈ known, Text.fold s ≠ m.name) ∧
    (Text.fold s = unknown.name → parse s = .error ⟨s⟩) ∧
    ofText s = (parse s).toOption.getD unknown ∧
    (∀ m ∈ known, ofTree? (.text s) = some m → ofText s = m) ∧
    (ofTree? (.text s) ≠ some (ofText s) ↔ ofTree? (.text s) = some unknown ∧
      ∃ m ∈ known, s ≠ m.name ∧ Text.Spells s m.name) ∧
    ∀ m, ofText m.name = m ∧ ofTree? (.text m.name) = some m := by
  have document : ∀ t : String, ofTree? (.text t) = some (ofName t) := fun _ => rfl
  refine ⟨fun _ => parse_eq_ok_iff, fun _ => fold_eq_name_iff, ?_, fun _ => parse_eq_error_iff, ?_,
    ofText_eq_getD s, ?_, ?_, ?_⟩
  · intro m n first second
    exact name_injective (first.symm.trans second)
  · intro folded
    refine parse_eq_error_iff.mpr ⟨rfl, fun m member named => ?_⟩
    exact (mem_known_iff m).mp member (name_injective (named.symm.trans folded))
  · intro m member read
    rw [document] at read
    exact ofText_of_ofName member (Option.some.inj read)
  · rw [document, ne_eq, Option.some.injEq, Option.some.injEq]
    exact ofName_ne_ofText_iff
  · intro m
    exact ⟨ofText_name m, ofTree?_toTree m⟩

/- Blanks outside ASCII are dropped; the long s is not read as an s. -/
example : ofText "\u3000Nr_RSRP\u00a0" = nrPower ∧ ofText "nr_r\u017frp" = unknown := by
  decide +kernel

end Metric
end FleetHealth
