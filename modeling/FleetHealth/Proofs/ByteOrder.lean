/-!
The order of texts. Comparing texts character by character is comparing their UTF-8 bytes.
-/
namespace FleetHealth.Text

/-- The bytes of a text in UTF-8. -/
def bytes (s : String) : List UInt8 := s.toUTF8.data.toList

/-- At the first byte in which they differ, and there is one, the former list has the lesser. -/
def Undercuts : List UInt8 → List UInt8 → Prop
  | a :: as, b :: bs => a < b ∨ a = b ∧ Undercuts as bs
  | _, _ => False

theorem append_lt_append {as bs : List UInt8} (under : Undercuts as bs) (xs ys : List UInt8) :
    as ++ xs < bs ++ ys := by
  induction as generalizing bs with
  | nil => exact under.elim
  | cons a as ih =>
    cases bs with
    | nil => exact under.elim
    | cons b bs =>
      rw [List.cons_append, List.cons_append, List.cons_lt_cons_iff]
      rcases under with less | ⟨same, under⟩
      · exact .inl less
      · exact .inr ⟨same, ih under⟩

/- Longer encodings have greater first bytes, and encodings of one length are the digits of their
characters in base 64 above constant marks. -/
theorem undercuts_of_lt {c d : Char} (less : c < d) :
    Undercuts (String.utf8EncodeChar c) (String.utf8EncodeChar d) := by
  have order : c.val.toNat < d.val.toNat := less
  have limit : d.val.toNat < 0x110000 := by
    have := d.valid
    simp only [UInt32.isValidChar, Nat.isValidChar] at this
    omega
  unfold String.utf8EncodeChar
  generalize c.val.toNat = v at order
  generalize d.val.toNat = w at order limit
  dsimp only
  repeat' split
  all_goals
    simp (disch := omega) only [Undercuts, UInt8.lt_iff_toNat_lt, ← UInt8.toNat_inj,
      UInt8.toNat_ofNat', Nat.reducePow, Nat.mod_eq_of_lt]
    omega

theorem bytes_eq (s : String) : bytes s = s.toList.flatMap String.utf8EncodeChar := by
  calc bytes s
      = (String.ofList s.toList).toByteArray.data.toList := by rw [String.ofList_toList]; rfl
    _ = s.toList.utf8Encode.data.toList := by rw [String.toByteArray_ofList]
    _ = s.toList.flatMap String.utf8EncodeChar := by simp [List.utf8Encode]

theorem flatMap_utf8EncodeChar_lt {cs ds : List Char} (less : cs < ds) :
    cs.flatMap String.utf8EncodeChar < ds.flatMap String.utf8EncodeChar := by
  induction less with
  | @nil d ds =>
    cases encoded : String.utf8EncodeChar d with
    | nil => exact absurd encoded String.utf8EncodeChar_ne_nil
    | cons b bs =>
      rw [List.flatMap_nil, List.flatMap_cons, encoded]
      exact List.nil_lt_cons b _
  | cons _ ih =>
    rw [List.flatMap_cons, List.flatMap_cons]
    exact List.append_left_lt ih
  | rel less =>
    rw [List.flatMap_cons, List.flatMap_cons]
    exact append_lt_append (undercuts_of_lt less) _ _

theorem bytes_lt_of_lt {a b : String} (less : a < b) : bytes a < bytes b := by
  rw [bytes_eq, bytes_eq]
  exact flatMap_utf8EncodeChar_lt (String.lt_iff.mp less)

end FleetHealth.Text
