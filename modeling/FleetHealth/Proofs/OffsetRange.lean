import FleetHealth.Proofs.AcceptedRuns
/-!
The offset of a catalog for every number of minutes there is. The seconds are taken in 32 bits
before they are held against the day, so minutes too far beyond a day are not refused: taking their
seconds overflows.
-/
namespace FleetHealth
namespace Config

variable {c : Config} {minutes : Int32}

/- The same with days cut elsewhere. -/
def withOffset (c : Config) (minutes : Int32) : Config := { c with utcOffsetMinutes := minutes }

def WithinDay (minutes : Int32) : Prop := -1439 ≤ minutes ∧ minutes ≤ 1439

instance (minutes : Int32) : Decidable (WithinDay minutes) := by
  unfold WithinDay
  infer_instance

/-- The seconds have at most 32 bits. -/
def Fits (minutes : Int32) : Prop := -35791394 ≤ minutes ∧ minutes ≤ 35791394

instance (minutes : Int32) : Decidable (Fits minutes) := by
  unfold Fits
  infer_instance

theorem withinDay_iff : WithinDay minutes ↔ minutes.toInt.natAbs ≤ 1439 := by
  have lower : -1439 ≤ minutes ↔ -1439 ≤ minutes.toInt := Int32.le_iff_toInt_le
  have upper : minutes ≤ 1439 ↔ minutes.toInt ≤ 1439 := Int32.le_iff_toInt_le
  rw [WithinDay, lower, upper]
  omega

theorem fits_iff : Fits minutes ↔
    -2147483648 ≤ 60 * minutes.toInt ∧ 60 * minutes.toInt ≤ 2147483647 := by
  have lower : -35791394 ≤ minutes ↔ -35791394 ≤ minutes.toInt := Int32.le_iff_toInt_le
  have upper : minutes ≤ 35791394 ↔ minutes.toInt ≤ 35791394 := Int32.le_iff_toInt_le
  rw [Fits, lower, upper]
  omega

theorem Fits.of_withinDay (within : WithinDay minutes) : Fits minutes := by
  rw [withinDay_iff] at within
  rw [fits_iff]
  omega

theorem offsetSeconds_of_fits (c : Config) (fits : Fits minutes) :
    (c.withOffset minutes).offsetSeconds = .ok (60 * minutes.toInt) :=
  if_pos (fits_iff.mp fits)

theorem offsetSeconds_of_not_fits (c : Config) (wide : ¬Fits minutes) :
    (c.withOffset minutes).offsetSeconds = .error .offsetOverflow :=
  if_neg (fun fits => wide (fits_iff.mpr fits))

theorem catalog_of_withinDay (accepted : c.validate = .ok ()) (within : WithinDay minutes) :
    ∃ catalog, (c.withOffset minutes).catalog = .ok catalog ∧
      catalog.offset.seconds = 60 * minutes.toInt := by
  obtain ⟨catalog, built⟩ := (validate_eq_ok_iff.mp accepted).catalog
  obtain ⟨_, same, valid⟩ := catalog_eq_ok_iff.mp built
  rw [same] at valid
  have seconds := offsetSeconds_of_fits c (.of_withinDay within)
  rw [withinDay_iff] at within
  let offset : Offset := ⟨60 * minutes.toInt, by omega⟩
  -- The overridden rules and factors are as sound at this offset as at the accepted one.
  have moved : (c.withOffset minutes).catalog = .ok (c.overrides offset) :=
    catalog_eq_ok_iff.mpr ⟨seconds, rfl, valid⟩
  exact ⟨c.overrides offset, moved, rfl⟩

theorem catalog_of_fits (c : Config) (beyond : ¬WithinDay minutes) (fits : Fits minutes) :
    (c.withOffset minutes).catalog = .error (.offsetRange minutes) := by
  rw [withinDay_iff] at beyond
  have outside : ¬(-86399 ≤ 60 * minutes.toInt ∧ 60 * minutes.toInt ≤ 86399) := by omega
  have none : Offset.ofSeconds? (60 * minutes.toInt) = none := dif_neg outside
  rw [Config.catalog, offsetSeconds_of_fits c fits]
  dsimp only [bind, Except.bind]
  rw [none]
  rfl

theorem catalog_of_not_fits (c : Config) (wide : ¬Fits minutes) :
    (c.withOffset minutes).catalog = .error .offsetOverflow := by
  rw [Config.catalog, offsetSeconds_of_not_fits c wide]
  rfl

theorem exists_month : ∃ c, load monthText = .ok c ∧ c.validate = .ok () := by
  obtain ⟨c, loaded, _⟩ : ∃ c, load monthText = .ok c ∧
    c.longWindowAndOffset = (720, false, 0) := exists_load (by decide +kernel)
  exact ⟨c, loaded, validate_eq_ok_iff.mpr (load_eq_ok_iff.mp loaded).2⟩

/-- Minutes within a day become the offset. Others are refused by name as long as their seconds have
at most 32 bits; beyond, the catalog fails with an overflow. -/
theorem catalog_offset (accepted : c.validate = .ok ()) (minutes : Int32) :
    (WithinDay minutes → ∃ catalog, (c.withOffset minutes).catalog = .ok catalog ∧
      catalog.offset.seconds = 60 * minutes.toInt) ∧
    (¬WithinDay minutes → Fits minutes →
      (c.withOffset minutes).catalog = .error (.offsetRange minutes) ∧
        (ConfigFault.offsetRange minutes).message = "reporting.utc_offset_minutes out of range: " ++
          String.ofList (Decimal.signed minutes.toInt)) ∧
    (¬Fits minutes → (c.withOffset minutes).catalog = .error .offsetOverflow) := by
  constructor
  · exact catalog_of_withinDay accepted
  constructor
  · intro beyond fits
    exact ⟨catalog_of_fits c beyond fits, rfl⟩
  · exact catalog_of_not_fits c

/-- An hour and a half east of UTC, a day east, and the first minute whose seconds overflow. -/
theorem catalog_offset_of_month : ∃ c, load monthText = .ok c ∧
    (∃ catalog, (c.withOffset 90).catalog = .ok catalog ∧ catalog.offset.seconds = 5400) ∧
    (c.withOffset 1440).catalog = .error (.offsetRange 1440) ∧
    (c.withOffset 35791395).catalog = .error .offsetOverflow := by
  obtain ⟨c, loaded, accepted⟩ := exists_month
  obtain ⟨within, _⟩ := catalog_offset accepted 90
  obtain ⟨_, refused, _⟩ := catalog_offset accepted 1440
  obtain ⟨_, _, overflow⟩ := catalog_offset accepted 35791395
  exact ⟨c, loaded, within (by decide), (refused (by decide) (by decide)).1, overflow (by decide)⟩

/-- Some 136 years east of UTC are not refused. -/
theorem catalog_of_far_east : ∃ c, load monthText = .ok c ∧ ¬WithinDay 71582788 ∧
    (c.withOffset 71582788).catalog = .error .offsetOverflow ∧
      (c.withOffset 71582788).catalog ≠ .error (.offsetRange 71582788) := by
  obtain ⟨c, loaded, _⟩ := exists_month
  have overflow : (c.withOffset 71582788).catalog = .error .offsetOverflow :=
    catalog_of_not_fits c (by decide)
  refine ⟨c, loaded, by decide, overflow, ?_⟩
  rw [overflow]
  intro same
  cases same

end Config
end FleetHealth
