import Mathlib.Tactic.IntervalCases
import FleetHealth.Proofs.Numerals
import FleetHealth.Tree.Json.Printer
import FleetHealth.Tree.Json.Reader
/-!
Strings and numbers in JSON. Each is read back from its own text whatever follows it, a number as
long as what follows starts no longer number.
-/
namespace FleetHealth.Tree.Json

section Strings

variable {rest : List Char}

theorem hexQuad?_control {n : Nat} (control : n < 0x20) (rest : List Char) :
    hexQuad? ('0' :: '0' :: hexDigit (n / 16) :: hexDigit (n % 16) :: rest) = some (n, rest) := by
  interval_cases n <;> rfl

theorem half_control {n : Nat} (control : n < 0x20) : half n = .whole (Char.ofNat n) := by
  have low : ¬ (0xD800 ≤ n ∧ n ≤ 0xDBFF) := by omega
  have high : ¬ (0xDC00 ≤ n ∧ n ≤ 0xDFFF) := by omega
  simp [half, low, high]

theorem stringTail_plain {c : Char} (fuel : Nat) (done rest : List Char) (quote : c ≠ '"')
    (backslash : c ≠ '\\') (printable : ¬ c.toNat < 0x20) :
    stringTail (fuel + 1) done true (c :: rest) = stringTail fuel (c :: done) true rest := by
  rw [stringTail, if_neg printable]
  · exact quote
  · intro _ mark _
    exact backslash mark
  · intro _ _ mark _
    exact backslash mark

/- A character takes one step of the reader, however many it is written with. -/
theorem stringTail_escape (fuel : Nat) (done : List Char) (c : Char) (rest : List Char) :
    stringTail (fuel + 1) done true (escape c ++ rest) = stringTail fuel (c :: done) true rest := by
  unfold escape
  split
  case h_8 quote backslash _ _ _ _ _ =>
    split
    case isTrue control =>
      simp [stringTail, hexQuad?_control control, half_control control]
    case isFalse printable => exact stringTail_plain fuel done rest quote backslash printable
  all_goals rfl

theorem stringTail_text {fuel : Nat} (cs done rest : List Char) (enough : cs.length < fuel) :
    stringTail fuel done true (cs.flatMap escape ++ '"' :: rest) =
      some (some (String.ofList (done.reverse ++ cs)), rest) := by
  induction cs generalizing fuel done with
  | nil =>
    obtain ⟨fuel, rfl⟩ := Nat.exists_eq_succ_of_ne_zero (Nat.ne_of_gt enough)
    simp [stringTail]
  | cons c cs ih =>
    obtain ⟨fuel, rfl⟩ := Nat.exists_eq_succ_of_ne_zero (Nat.ne_zero_of_lt enough)
    rw [List.flatMap_cons, List.append_assoc, stringTail_escape,
      ih (c :: done) (Nat.lt_of_succ_lt_succ enough)]
    simp

theorem escape_length_pos (c : Char) : 0 < (escape c).length := by
  unfold escape
  repeat' split
  all_goals simp

theorem length_le_escaped (cs : List Char) : cs.length ≤ (cs.flatMap escape).length := by
  induction cs with
  | nil => exact Nat.le_refl 0
  | cons c cs ih =>
    have one := escape_length_pos c
    simp only [List.flatMap_cons, List.length_append, List.length_cons]
    omega

theorem string?_text (s : String) (rest : List Char) :
    string? (s.toList.flatMap escape ++ '"' :: rest) = some (some s, rest) := by
  have short := length_le_escaped s.toList
  have enough : s.toList.length < (s.toList.flatMap escape ++ '"' :: rest).length + 1 := by
    simp only [List.length_append, List.length_cons]
    omega
  rw [string?, stringTail_text _ _ _ enough]
  simp

end Strings

section Numbers

variable {cs cs' ds rest : List Char}

/-- What follows a number does not go on with it. -/
def StopsNumber (rest : List Char) : Prop :=
  ∀ c ∈ rest.head?, c.isDigit = false ∧ c ≠ '.' ∧ c ≠ 'e' ∧ c ≠ 'E'

theorem stopsNumber_nil : StopsNumber [] := by
  intro c first
  cases first

theorem stopsNumber_cons {c : Char} (rest : List Char) (digit : c.isDigit = false) (point : c ≠ '.')
    (small : c ≠ 'e') (capital : c ≠ 'E') : StopsNumber (c :: rest) := by
  rintro _ ⟨⟩
  exact ⟨digit, point, small, capital⟩

theorem StopsNumber.stopsDigits (stops : StopsNumber rest) : Decimal.StopsDigits rest :=
  fun c first => (stops c first).1

theorem digitRun_append (cs : List Char) (stops : StopsNumber rest) :
    digitRun (cs ++ rest) = ((digitRun cs).1, (digitRun cs).2 ++ rest) := by
  simp only [digitRun, Decimal.takeWhile_append_of_stops cs stops.stopsDigits,
    Decimal.dropWhile_append_of_stops cs stops.stopsDigits]

theorem fraction?_none {c : Char} (cs : List Char) (point : c ≠ '.') :
    fraction? (c :: cs) = some ([], c :: cs) := by
  rw [fraction?]
  rintro rest ⟨⟩
  exact point rfl

theorem StopsNumber.fraction? (stops : StopsNumber rest) : fraction? rest = some ([], rest) := by
  cases rest with
  | nil => rfl
  | cons c rest => exact fraction?_none rest (stops c rfl).2.1

theorem fraction?_append (stops : StopsNumber rest) (read : fraction? cs = some (ds, cs')) :
    Json.fraction? (cs ++ rest) = some (ds, cs' ++ rest) := by
  cases cs with
  | nil =>
    obtain ⟨rfl, rfl⟩ : [] = ds ∧ [] = cs' := by simpa [Json.fraction?] using read
    exact stops.fraction?
  | cons c cs =>
    by_cases point : c = '.'
    · subst point
      simp only [List.cons_append, Json.fraction?, digitRun_append cs stops] at read ⊢
      split at read
      case isTrue => cases read
      case isFalse run =>
        cases read
        exact if_neg run
    · rw [fraction?_none cs point] at read
      cases read
      exact fraction?_none (cs ++ rest) point

theorem exponent?_none {c : Char} (cs : List Char) (small : c ≠ 'e') (capital : c ≠ 'E') :
    exponent? (c :: cs) = some (none, c :: cs) := by
  simp [exponent?, small, capital]

theorem StopsNumber.exponent? (stops : StopsNumber rest) :
    exponent? rest = some (none, rest) := by
  cases rest with
  | nil => rfl
  | cons c rest => exact exponent?_none rest (stops c rfl).2.2.1 (stops c rfl).2.2.2

theorem sign_append (rest : List Char) (more : cs ≠ []) :
    sign (cs ++ rest) = ((sign cs).1, (sign cs).2 ++ rest) := by
  cases cs with
  | nil => exact absurd rfl more
  | cons c cs =>
    by_cases minus : c = '-'
    · subst minus
      rfl
    · by_cases plus : c = '+'
      · subst plus
        rfl
      · simp [sign, minus, plus]

theorem exponent?_append {n : Option Int} (stops : StopsNumber rest)
    (read : exponent? cs = some (n, cs')) : Json.exponent? (cs ++ rest) = some (n, cs' ++ rest) := by
  cases cs with
  | nil =>
    obtain ⟨rfl, rfl⟩ : none = n ∧ [] = cs' := by simpa [Json.exponent?] using read
    exact stops.exponent?
  | cons c cs =>
    by_cases mark : (c = 'e' || c = 'E') = true
    · simp only [List.cons_append, Json.exponent?, if_pos mark] at read ⊢
      have more : cs ≠ [] := by
        rintro rfl
        simp [sign, digitRun] at read
      rw [sign_append rest more, digitRun_append _ stops]
      split at read
      case isTrue => cases read
      case isFalse run =>
        cases read
        exact if_neg run
    · simp only [Bool.or_eq_true, decide_eq_true_eq, not_or] at mark
      rw [exponent?_none cs mark.1 mark.2] at read
      cases read
      exact exponent?_none (cs ++ rest) mark.1 mark.2

theorem number?_append {negative : Bool} {t : Tree} (stops : StopsNumber rest)
    (read : number? negative cs = some (t, cs')) :
    number? negative (cs ++ rest) = some (t, cs' ++ rest) := by
  simp only [number?, digitRun_append cs stops] at read ⊢
  split at read
  case isTrue => cases read
  case isFalse whole =>
    rw [if_neg whole]
    simp only [Option.bind_eq_bind, Option.bind_eq_some_iff] at read ⊢
    obtain ⟨⟨fraction, cs₁⟩, fraction_read, ⟨exponent, cs₂⟩, exponent_read, same⟩ := read
    cases same
    exact ⟨_, fraction?_append stops fraction_read, _, exponent?_append stops exponent_read, rfl⟩

theorem sign_suffix (cs : List Char) : (sign cs).2 <:+ cs := by
  unfold sign
  split
  · exact List.suffix_cons _ _
  · exact List.suffix_cons _ _
  · exact List.suffix_refl _

theorem digitRun_suffix (cs : List Char) : (digitRun cs).2 <:+ cs := List.dropWhile_suffix _

theorem fraction?_suffix (read : fraction? cs = some (ds, cs')) : cs' <:+ cs := by
  unfold Json.fraction? at read
  split at read
  · simp only at read
    split at read <;> cases read
    exact (digitRun_suffix _).trans (List.suffix_cons _ _)
  · cases read
    exact List.suffix_refl _

theorem exponent?_suffix {n : Option Int} (read : exponent? cs = some (n, cs')) : cs' <:+ cs := by
  unfold Json.exponent? at read
  split at read
  · split at read
    · simp only at read
      split at read <;> cases read
      exact (digitRun_suffix _).trans ((sign_suffix _).trans (List.suffix_cons _ _))
    · cases read
      exact List.suffix_refl _
  · cases read
    exact List.suffix_refl _

theorem number?_suffix {negative : Bool} {t : Tree} (read : number? negative cs = some (t, cs')) :
    cs' <:+ cs := by
  simp only [number?] at read
  split at read
  · cases read
  · simp only [Option.bind_eq_bind, Option.bind_eq_some_iff] at read
    obtain ⟨⟨fraction, cs₁⟩, fraction_read, ⟨exponent, cs₂⟩, exponent_read, same⟩ := read
    cases same
    exact (exponent?_suffix exponent_read).trans
      ((fraction?_suffix fraction_read).trans (digitRun_suffix cs))

theorem number?_digits (negative : Bool) (n : Nat) :
    number? negative (Decimal.digits n) = some (wholeOrReal negative n, []) := by
  have all : ∀ c ∈ Decimal.digits n, c.isDigit = true := fun c => Decimal.isDigit_of_mem_digits
  have run : digitRun (Decimal.digits n) = (Decimal.digits n, []) := by
    rw [digitRun, List.takeWhile_eq_self_iff.mpr all, List.dropWhile_eq_nil_iff.mpr all]
  have shown : (Decimal.digits n).isEmpty = false := by
    simp [Decimal.digits_ne_nil]
  have leading : ¬ (1 < (Decimal.digits n).length ∧ (Decimal.digits n).head? = some '0') := by
    rintro ⟨several, zero⟩
    refine Decimal.digits_head_ne_zero (Nat.pos_of_ne_zero ?_) zero
    rintro rfl
    exact absurd several (by decide)
  simp only [number?, run, shown, Bool.false_or, Bool.and_eq_true, decide_eq_true_eq, leading,
    if_false, Decimal.value_digits, numberOf, Json.fraction?, Json.exponent?]
  rfl

end Numbers

section Texts

/-- A character numbers are written with. -/
def IsNumeric (c : Char) : Prop := c.isDigit = true ∨ c = '-' ∨ c = '.' ∨ c = 'e'

instance (c : Char) : Decidable (IsNumeric c) := by unfold IsNumeric; infer_instance

variable {c : Char} {cs rest : List Char}

theorem IsNumeric.not_space (numeric : IsNumeric c) : isSpace c = false := by
  rw [Bool.eq_false_iff]
  intro space
  simp only [isSpace, Bool.or_eq_true, decide_eq_true_eq] at space
  rcases space with ((rfl | rfl) | rfl) | rfl <;> exact absurd numeric (by decide)

theorem skipSpace_cons (cs : List Char) (solid : isSpace c = false) :
    skipSpace (c :: cs) = c :: cs := by
  simp [skipSpace, solid]

theorem value?_numeric (fuel depth : Nat) (cs : List Char) (numeric : IsNumeric c) :
    value? (fuel + 1) depth (c :: cs) =
      if c = '-' then number? true cs else number? false (c :: cs) := by
  rw [value?, skipSpace_cons cs numeric.not_space]
  split
  case h_5 same =>
    cases same
    rfl
  case h_8 _ _ _ _ minus _ _ =>
    rw [if_neg]
    rintro rfl
    exact minus cs rfl
  all_goals
    next same =>
      cases same
      exact absurd numeric (by decide)

/- A number read from the whole of a text is read from it where it stands before something else,
   at any depth. -/
theorem value?_numeric_append {t : Tree} {fuel depth : Nat} (fuel' depth' : Nat)
    (numeric : ∀ c ∈ cs, IsNumeric c) (stops : StopsNumber rest)
    (read : value? (fuel + 1) depth cs = some (t, [])) :
    value? (fuel' + 1) depth' (cs ++ rest) = some (t, rest) := by
  cases cs with
  | nil => cases read
  | cons c cs =>
    have first : IsNumeric c := numeric c List.mem_cons_self
    rw [value?_numeric fuel depth cs first] at read
    rw [List.cons_append, value?_numeric fuel' depth' (cs ++ rest) first]
    split at read
    case isTrue minus =>
      rw [if_pos minus]
      exact number?_append stops read
    case isFalse minus =>
      rw [if_neg minus]
      exact number?_append stops read

theorem value?_suffix {t : Tree} {fuel depth : Nat} (numeric : ∀ c ∈ cs, IsNumeric c)
    (read : value? (fuel + 1) depth cs = some (t, rest)) : rest <:+ cs := by
  cases cs with
  | nil => cases read
  | cons c cs =>
    rw [value?_numeric fuel depth cs (numeric c List.mem_cons_self)] at read
    split at read
    · exact (number?_suffix read).trans (List.suffix_cons _ _)
    · exact number?_suffix read

theorem signed_numeric (n : Int) : ∀ c ∈ Decimal.signed n, IsNumeric c := by
  intro c member
  unfold Decimal.signed at member
  split at member
  · rcases List.mem_cons.mp member with rfl | digit
    · exact .inr (.inl rfl)
    · exact .inl (Decimal.isDigit_of_mem_digits digit)
  · exact .inl (Decimal.isDigit_of_mem_digits member)

theorem positional_numeric (s : Decimal.Scaled) : ∀ c ∈ Decimal.positional s, IsNumeric c := by
  have zero : ∀ {n : Nat} {c : Char}, c ∈ List.replicate n '0' → IsNumeric c := by
    intro n c member
    rw [List.eq_of_mem_replicate member]
    decide
  have digit : ∀ {c : Char}, c ∈ Decimal.digits s.significand → IsNumeric c :=
    fun member => .inl (Decimal.isDigit_of_mem_digits member)
  have either : ∀ {n : Nat} {c : Char},
      c ∈ List.replicate n '0' ++ Decimal.digits s.significand → IsNumeric c :=
    fun member => (List.mem_append.mp member).elim zero digit
  intro c member
  unfold Decimal.positional at member
  split at member
  · exact (List.mem_append.mp member).elim digit zero
  · rcases List.mem_append.mp member with whole | point
    · exact either (List.mem_of_mem_take whole)
    · rcases List.mem_cons.mp point with rfl | fraction
      · decide
      · exact either (List.mem_of_mem_drop fraction)

theorem notated_numeric (x : Float) : ∀ c ∈ Decimal.notated x, IsNumeric c := by
  intro c member
  have sign : c ∈ (if Decimal.isNegative x then ['-'] else []) → IsNumeric c := by
    intro member
    split at member
    · rw [List.mem_singleton.mp member]
      decide
    · cases member
  have digit : c ∈ Decimal.digits (Decimal.shortest x).significand → IsNumeric c :=
    fun member => .inl (Decimal.isDigit_of_mem_digits member)
  have zero : ∀ c ∈ ['0', '.', '0'], IsNumeric c := by simp [IsNumeric]
  have tenths : ∀ c ∈ ['.', '0'], IsNumeric c := by simp [IsNumeric]
  simp only [Decimal.notated] at member
  split at member
  case isTrue =>
    exact (List.mem_append.mp member).elim sign (zero c)
  case isFalse =>
    split at member
    case isTrue =>
      simp only [List.mem_append] at member
      rcases member with (front | run) | tail
      · exact sign front
      · exact positional_numeric _ c run
      · split at tail
        · exact tenths c tail
        · cases tail
    case isFalse =>
      simp only [List.mem_append, List.mem_cons] at member
      rcases member with ((front | first) | fraction) | rfl | exponent
      · exact sign front
      · exact digit (List.mem_of_mem_take first)
      · split at fraction
        · cases fraction
        · rcases List.mem_cons.mp fraction with rfl | run
          · decide
          · exact digit (List.mem_of_mem_drop run)
      · decide
      · exact signed_numeric _ c exponent

/-- Whole numbers of 64 bits, signed or not. -/
def IsWhole64 (n : Int) : Prop := Int64.minValue.toInt ≤ n ∧ n < UInt64.size

theorem value?_digits (n : Nat) : value? 1 0 (Decimal.digits n) = some (wholeOrReal false n, []) := by
  obtain ⟨d, ds, shown⟩ := List.exists_cons_of_ne_nil (Decimal.digits_ne_nil n)
  have digit : d.isDigit = true := Decimal.isDigit_of_mem_digits (by rw [shown]; exact .head ds)
  have plus : d ≠ '-' := by
    rintro rfl
    cases digit
  rw [shown, value?_numeric 0 0 ds (.inl digit), if_neg plus, ← shown, number?_digits]

theorem value?_minus_digits (n : Nat) :
    value? 1 0 ('-' :: Decimal.digits n) = some (wholeOrReal true n, []) := by
  rw [value?_numeric 0 0 _ (.inr (.inl rfl)), if_pos rfl, number?_digits]

theorem value?_signed_alone {n : Int} (whole : IsWhole64 n) :
    value? 1 0 (Decimal.signed n) = some (.int n, []) := by
  obtain ⟨low, high⟩ := whole
  unfold Decimal.signed
  split
  case isTrue negative =>
    have positive : 0 < n.natAbs := by omega
    have back : -(n.natAbs : Int) = n := by omega
    have signed : (true && decide (0 < n.natAbs) &&
        decide (Int64.minValue.toInt ≤ -(n.natAbs : Int))) = true := by
      simp only [Bool.and_eq_true, decide_eq_true_eq, back]
      exact ⟨⟨trivial, positive⟩, low⟩
    rw [value?_minus_digits, wholeOrReal, if_neg (by simp), if_pos signed, back]
  case isFalse natural =>
    have back : (n.natAbs : Int) = n := by omega
    have small : n.natAbs < UInt64.size := by omega
    rw [value?_digits, wholeOrReal, if_pos (by simpa using small), back]

theorem value?_signed {n : Int} (fuel depth : Nat) (whole : IsWhole64 n)
    (stops : StopsNumber rest) :
    value? (fuel + 1) depth (Decimal.signed n ++ rest) = some (.int n, rest) :=
  value?_numeric_append fuel depth (signed_numeric n) stops (value?_signed_alone whole)

end Texts

end FleetHealth.Tree.Json
