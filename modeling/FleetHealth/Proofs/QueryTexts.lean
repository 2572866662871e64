import Mathlib.Data.List.TakeWhile
import Mathlib.Tactic.IntervalCases
import FleetHealth.Proofs.ByteOrder
import FleetHealth.Service
import FleetHealth.Tree.Json.Printer
/-!
Texts in queries. Any text can stand in a query with each of its bytes percent-encoded, and is read
back from there.
-/
namespace FleetHealth

namespace Text

section Decoding

variable {b n : UInt8}

/-- The bytes may begin a character, after which so many continuations are to come. -/
def Opens (b n : UInt8) (more : Nat) : Prop :=
  ∃ second, lead? b = some (second, more) ∧ second n = true

def Continues (n : UInt8) : Prop := 0x80 ≤ n.toNat ∧ n.toNat ≤ 0xBF

theorem isContinuation_iff : isContinuation n = true ↔ Continues n := by
  simp [isContinuation, Continues, UInt8.le_iff_toNat_le]

theorem opens_two (low : 0xC2 ≤ b.toNat) (high : b.toNat ≤ 0xDF) (next : Continues n) :
    Opens b n 0 := by
  refine ⟨isContinuation, ?_, isContinuation_iff.mpr next⟩
  simp [lead?, UInt8.le_iff_toNat_le, low, high]

/- Below the bound after 0xE0 a shorter encoding would do, above the one after 0xED are
   surrogates. -/
theorem opens_three (low : 0xE0 ≤ b.toNat) (high : b.toNat ≤ 0xEF) (next : Continues n)
    (least : b.toNat = 0xE0 → 0xA0 ≤ n.toNat) (greatest : b.toNat = 0xED → n.toNat ≤ 0x9F) :
    Opens b n 1 := by
  obtain ⟨low_next, high_next⟩ := next
  by_cases first : b = 0xE0
  · subst first
    exact ⟨_, rfl, by simpa [UInt8.le_iff_toNat_le, high_next] using least rfl⟩
  · by_cases surrogates : b = 0xED
    · subst surrogates
      exact ⟨_, rfl, by simpa [UInt8.le_iff_toNat_le, low_next] using greatest rfl⟩
    · refine ⟨isContinuation, ?_, isContinuation_iff.mpr ⟨low_next, high_next⟩⟩
      have above : 0xE1 ≤ b.toNat := by
        have : b.toNat ≠ 0xE0 := fun same => first (UInt8.toNat_inj.mp same)
        omega
      have longer : ¬ b.toNat ≤ 0xDF := by omega
      simp [lead?, UInt8.le_iff_toNat_le, first, surrogates, above, longer, high]

theorem opens_four (low : 0xF0 ≤ b.toNat) (high : b.toNat ≤ 0xF4) (next : Continues n)
    (least : b.toNat = 0xF0 → 0x90 ≤ n.toNat) (greatest : b.toNat = 0xF4 → n.toNat ≤ 0x8F) :
    Opens b n 2 := by
  obtain ⟨low_next, high_next⟩ := next
  by_cases first : b = 0xF0
  · subst first
    exact ⟨_, rfl, by simpa [UInt8.le_iff_toNat_le, high_next] using least rfl⟩
  · by_cases last : b = 0xF4
    · subst last
      exact ⟨_, rfl, by simpa [UInt8.le_iff_toNat_le, low_next] using greatest rfl⟩
    · refine ⟨isContinuation, ?_, isContinuation_iff.mpr ⟨low_next, high_next⟩⟩
      have not_first : b.toNat ≠ 0xF0 := fun same => first (UInt8.toNat_inj.mp same)
      have not_last : b.toNat ≠ 0xF4 := fun same => last (UInt8.toNat_inj.mp same)
      have above : 0xF1 ≤ b.toNat := by omega
      have below : b.toNat ≤ 0xF3 := by omega
      have longer : ¬ b.toNat ≤ 0xEF ∧ ¬ b.toNat ≤ 0xDF := by omega
      have others : b ≠ 0xE0 ∧ b ≠ 0xED := by
        constructor
        · rintro rfl; exact absurd low (by decide)
        · rintro rfl; exact absurd low (by decide)
      simp [lead?, UInt8.le_iff_toNat_le, first, others, above, below, longer]

theorem continuations_append {tail : List UInt8} (all : ∀ c ∈ tail, Continues c)
    (rest : List UInt8) : continuations tail.length (tail ++ rest) = tail := by
  induction tail with
  | nil => rfl
  | cons c tail ih =>
    rw [List.forall_mem_cons] at all
    rw [List.length_cons, List.cons_append, continuations, if_pos (isContinuation_iff.mpr all.1),
      ih all.2]

/-- The number whose digits in base 64 the bytes carry after those of the first. -/
def digits64 (bytes : List UInt8) (first : Nat) : Nat :=
  bytes.foldl (fun v c => v * 64 + c.toNat % 64) first

/-- A longer encoding is one step of decoding, whatever follows it. -/
theorem decodeStep_wide {c : Char} {tail : List UInt8} (wide : 0x80 ≤ b.toNat)
    (opens : Opens b n tail.length) (all : ∀ c ∈ tail, Continues c)
    (whole : digits64 (n :: tail) (leadBits b (tail.length + 1)) = c.toNat) (rest : List UInt8) :
    decodeStep b (n :: tail ++ rest) = (some c, (n :: tail).length + 1) := by
  obtain ⟨second, lead, fits⟩ := opens
  have wide : ¬ b < 0x80 := by
    rw [UInt8.lt_iff_toNat_lt]
    exact Nat.not_lt.mpr wide
  have character : Char.ofNat (digits64 (n :: tail) (leadBits b (tail.length + 1))) = c := by
    rw [whole, Char.ofNat_toNat]
  rw [List.cons_append]
  simp only [decodeStep, if_neg wide, lead, if_pos fits, continuations_append all, if_true]
  exact congrArg (fun c => (some c, tail.length + 2)) character

theorem decodeStep_encodeChar (c : Char) (rest : List UInt8) :
    ∃ b tail, encodeChar c = b :: tail ∧
      decodeStep b (tail ++ rest) = (some c, tail.length + 1) := by
  have valid : c.toNat < 0xD800 ∨ 0xDFFF < c.toNat ∧ c.toNat < 0x110000 := c.valid
  have number : c.val.toNat = c.toNat := rfl
  unfold encodeChar String.utf8EncodeChar
  rw [number]
  dsimp only
  split
  case isTrue one =>
    have byte : (UInt8.ofNat c.toNat).toNat = c.toNat :=
      UInt8.toNat_ofNat_of_lt (Nat.lt_of_le_of_lt one (by decide))
    have narrow : UInt8.ofNat c.toNat < 0x80 := by
      rw [UInt8.lt_iff_toNat_lt, byte]
      exact Nat.lt_succ_of_le one
    refine ⟨_, [], rfl, ?_⟩
    rw [decodeStep, if_pos narrow, byte, Char.ofNat_toNat]
    rfl
  split
  case isTrue two =>
    refine ⟨_, [_], rfl, decodeStep_wide ?_ (opens_two ?_ ?_ ?_) (List.forall_mem_nil _) ?_ rest⟩
    all_goals
      simp only [Continues, digits64, leadBits, List.foldl_cons, List.foldl_nil, List.length_nil,
        UInt8.toNat_ofNat', Nat.reducePow, reduceIte, Nat.reduceAdd, Nat.reduceEqDiff]
      omega
  split
  case isTrue three =>
    refine ⟨_, [_, _], rfl, decodeStep_wide ?_ (opens_three ?_ ?_ ?_ ?_ ?_)
      (List.forall_mem_singleton.mpr ?_) ?_ rest⟩
    all_goals
      simp only [Continues, digits64, leadBits, List.foldl_cons, List.foldl_nil,
        List.length_singleton, UInt8.toNat_ofNat', Nat.reducePow, reduceIte, Nat.reduceAdd,
        Nat.reduceEqDiff]
      omega
  case isFalse =>
    refine ⟨_, [_, _, _], rfl, decodeStep_wide ?_ (opens_four ?_ ?_ ?_ ?_ ?_)
      (List.forall_mem_cons.mpr ⟨?_, List.forall_mem_singleton.mpr ?_⟩) ?_ rest⟩
    all_goals
      simp only [Continues, digits64, leadBits, List.foldl_cons, List.foldl_nil, List.length_cons,
        List.length_nil, UInt8.toNat_ofNat', Nat.reducePow, reduceIte, Nat.reduceAdd,
        Nat.reduceEqDiff]
      omega

theorem decodeAll_encode (cs : List Char) {fuel : Nat}
    (enough : (cs.flatMap encodeChar).length ≤ fuel) :
    decodeAll fuel (cs.flatMap encodeChar) = cs.map some := by
  induction cs generalizing fuel with
  | nil => cases fuel <;> rfl
  | cons c cs ih =>
    obtain ⟨b, tail, encoded, step⟩ := decodeStep_encodeChar c (cs.flatMap encodeChar)
    rw [List.flatMap_cons, encoded, List.cons_append, List.length_cons, List.length_append]
      at enough
    obtain ⟨fuel, rfl⟩ := Nat.exists_eq_succ_of_ne_zero (Nat.ne_zero_of_lt enough)
    rw [List.flatMap_cons, encoded, List.cons_append, decodeAll, step]
    simp only [Nat.add_sub_cancel, List.drop_left, List.map_cons]
    rw [ih (by omega)]

theorem utf8Lossy_bytes (s : String) : utf8Lossy (bytes s) = s := by
  have whole : bytes s = s.toList.flatMap encodeChar := bytes_eq s
  rw [utf8Lossy, whole, decodeAll_encode _ (Nat.le_refl _), List.map_map]
  exact (congrArg String.ofList (List.map_id s.toList)).trans String.ofList_toList

end Decoding

section Encoding

/-- A percent sign and the two hexadecimal digits of a byte. -/
def encodeByte (b : UInt8) : List Char :=
  ['%', Tree.Json.hexDigit (b.toNat / 16), Tree.Json.hexDigit (b.toNat % 16)]

/-- A text with each byte percent-encoded. -/
def percentEncode (s : String) : List Char := (bytes s).flatMap encodeByte

theorem hexValue?_hexDigit {n : Nat} (digit : n < 16) :
    Tree.Json.hexValue? (Tree.Json.hexDigit n) = some n := by
  interval_cases n <;> rfl

theorem percentDecode_encodeBytes (bs : List UInt8) :
    percentDecode (bs.flatMap encodeByte) = bs := by
  induction bs with
  | nil => rfl
  | cons b bs ih =>
    have bound := b.toNat_lt
    have whole : (16 * (b.toNat / 16) + b.toNat % 16).toUInt8 = b := by
      rw [Nat.div_add_mod]
      exact UInt8.ofNat_toNat
    rw [List.flatMap_cons, encodeByte, List.cons_append, List.cons_append, List.cons_append,
      percentDecode, hexValue?_hexDigit (by omega), hexValue?_hexDigit (Nat.mod_lt _ (by decide))]
    simp only [List.nil_append, ih, whole]

/-- What encoded texts are made of. -/
def isEncoding (c : Char) : Bool := "%0123456789abcdef".toList.contains c

theorem isEncoding_of_mem {s : String} {c : Char} (member : c ∈ percentEncode s) :
    isEncoding c = true := by
  have digit : ∀ n < 16, isEncoding (Tree.Json.hexDigit n) = true := by decide +kernel
  obtain ⟨b, _, inside⟩ := List.mem_flatMap.mp member
  have bound := b.toNat_lt
  simp only [encodeByte, List.mem_cons, List.not_mem_nil, or_false] at inside
  rcases inside with rfl | rfl | rfl
  · decide +kernel
  · exact digit _ (by omega)
  · exact digit _ (by omega)

theorem not_mem_percentEncode {mark : Char} (other : isEncoding mark = false) (s : String) :
    mark ∉ percentEncode s := by
  intro member
  exact Bool.false_ne_true (other.symm.trans (isEncoding_of_mem member))

theorem isQueryChar_of_mem {s : String} {c : Char} (member : c ∈ percentEncode s) :
    Target.isQueryChar c = true := by
  have all : "%0123456789abcdef".toList.all Target.isQueryChar = true := by decide +kernel
  exact List.all_eq_true.mp all c (List.contains_iff_mem.mp (isEncoding_of_mem member))

theorem formDecode_percentEncode (s : String) : formDecode (percentEncode s) = s := by
  have kept : (percentEncode s).map (fun c => if c = '+' then ' ' else c) = percentEncode s := by
    refine (List.map_congr_left fun c member => ?_).trans (List.map_id _)
    refine if_neg ?_
    rintro rfl
    exact not_mem_percentEncode (by decide +kernel) s member
  rw [formDecode, kept, percentEncode, percentDecode_encodeBytes, utf8Lossy_bytes]

theorem split_eq_singleton {separator : Char} {cs : List Char} (absent : separator ∉ cs) :
    split separator cs = [cs] := by
  induction cs with
  | nil => rfl
  | cons c cs ih =>
    rw [List.mem_cons, not_or] at absent
    rw [split, if_neg (Ne.symm absent.1), ih absent.2]

theorem takeWhile_ne_append {mark : Char} {front : List Char} (absent : mark ∉ front)
    (rest : List Char) : (front ++ mark :: rest).takeWhile (· ≠ mark) = front := by
  rw [List.takeWhile_append_of_pos, List.takeWhile_cons_of_neg (by simp), List.append_nil]
  intro c member
  refine decide_eq_true ?_
  rintro rfl
  exact absent member

/-- A name and an encoded value are read as one pair. -/
theorem formPairs_field {name : List Char} (no_amp : '&' ∉ name) (no_equals : '=' ∉ name)
    (value : String) :
    formPairs (name ++ '=' :: percentEncode value) = [(formDecode name, value)] := by
  have single : '&' ∉ name ++ '=' :: percentEncode value := by
    have absent : '&' ∉ percentEncode value := not_mem_percentEncode (by decide +kernel) value
    simp [no_amp, absent]
  have rest : (name ++ '=' :: percentEncode value).drop (name.length + 1) =
      percentEncode value := by
    rw [List.drop_append]
    simp
  rw [formPairs, split_eq_singleton single, List.filter_cons_of_pos (by simp), List.filter_nil,
    List.map_singleton]
  simp only [takeWhile_ne_append no_equals, rest, formDecode_percentEncode]

end Encoding

end Text

/-- A path and a query of allowed characters are cut at the question mark between them. -/
theorem Target.ofPath?_query {path query : List Char} (sound : ∀ c ∈ path, isPathChar c = true)
    (shown : ∀ c ∈ query, isQueryChar c = true) :
    ofPath? (path ++ '?' :: query) = some ⟨path, query⟩ := by
  have no_mark : '?' ∉ path := fun member => absurd (sound _ member) (by decide)
  have no_fragment : (path ++ '?' :: query).takeWhile (· ≠ '#') = path ++ '?' :: query := by
    refine List.takeWhile_eq_self_iff.mpr fun c member => decide_eq_true ?_
    rintro rfl
    rcases List.mem_append.mp member with inside | inside
    · exact absurd (sound _ inside) (by decide)
    · rcases List.mem_cons.mp inside with mark | inside
      · exact absurd mark (by decide)
      · exact absurd (shown _ inside) (by decide)
  have rest : (path ++ '?' :: query).drop (path.length + 1) = query := by
    rw [List.drop_append]
    simp
  have allowed : (path.all isPathChar && query.all isQueryChar) = true := by
    rw [List.all_eq_true.mpr sound, List.all_eq_true.mpr shown]
    rfl
  rw [ofPath?, no_fragment]
  simp only [Text.takeWhile_ne_append no_mark, rest, if_pos allowed]

end FleetHealth
