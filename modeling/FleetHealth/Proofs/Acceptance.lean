import FleetHealth.Config
import FleetHealth.Proofs.Outcomes
/-!
What acceptance of a catalog or a configuration says: each of its checks holds of every entry,
whichever fault would have been reported first.
-/
namespace FleetHealth

theorem Population.mem_all (p : Population) : p ∈ all := by cases p <;> decide

theorem Table.forall_mem_entries_iff {κ α : Type} {keys : List κ} (complete : ∀ k, k ∈ keys)
    {t : Table κ α} {holds : κ × α → Prop} :
    (∀ e ∈ t.entries keys, holds e) ↔ ∀ k a, t k = some a → holds (k, a) := by
  simp only [entries, List.mem_filterMap, Option.map_eq_some_iff]
  constructor
  · intro all k a entry
    exact all (k, a) ⟨k, complete k, a, entry, rfl⟩
  · intro all _ h
    obtain ⟨k, _, a, entry, rfl⟩ := h
    exact all k a entry

namespace Catalog

/-- What an accepted catalog promises. -/
structure Sound (c : Catalog) : Prop where
  metricRules : ∀ m rule, c.thresholds.metrics m = some rule → checkMetricRule m rule = .ok ()
  populationRules :
    ∀ p rule, c.thresholds.populations p = some rule → checkPopulationRule p rule = .ok ()
  ruled : ∀ m ∈ c.referenced, ∃ rule, c.thresholds.metrics m = some rule
  factors : ∀ m factor, c.conversions m = some factor → checkConversion m factor = .ok ()

theorem validate_eq_ok_iff {c : Catalog} : c.validate = .ok () ↔ c.Sound := by
  have ruled : ∀ m, (if c.thresholds.isCatalogued m then .ok () else .error (.noRule m) :
      Except CatalogFault Unit) = .ok () ↔ ∃ rule, c.thresholds.metrics m = some rule := by
    intro m
    rw [← Option.isSome_iff_exists]
    show _ ↔ c.thresholds.isCatalogued m = true
    cases c.thresholds.isCatalogued m <;> simp
  unfold validate
  simp only [bind_eq_ok_iff, forM_eq_ok_iff, Table.forall_mem_entries_iff Metric.mem_all,
    Table.forall_mem_entries_iff Population.mem_all, ruled]
  constructor
  · intro h
    obtain ⟨metricRules, populationRules, referenced, factors⟩ := h
    exact ⟨metricRules, populationRules, referenced, factors⟩
  · intro h
    obtain ⟨metricRules, populationRules, referenced, factors⟩ := h
    exact ⟨metricRules, populationRules, referenced, factors⟩

end Catalog

theorem PositiveSetting.mem_all (s : PositiveSetting) : s ∈ all := by cases s <;> decide

namespace Config

/-- What an accepted configuration promises. -/
structure Accepted (c : Config) : Prop where
  port : 0 < c.server.port
  path : c.database.path ≠ ""
  pool : 0 < c.database.maxPoolSize
  positive : ∀ s : PositiveSetting, 0 < s.value c.refresh
  offset : -1439 ≤ c.utcOffsetMinutes ∧ c.utcOffsetMinutes ≤ 1439
  missing : ∀ m value, c.missingValues m = some value → m ≠ .unknown ∧ value.isFinite = true
  catalog : ∃ catalog, c.catalog = .ok catalog

theorem require_eq_ok_iff {holds : Bool} {fault : ConfigFault} :
    require holds fault = .ok () ↔ holds = true := by
  cases holds <;> simp [require]

theorem checkMissingValue_eq_ok_iff {m : Metric} {value : Float} :
    checkMissingValue m value = .ok () ↔ m ≠ .unknown ∧ value.isFinite = true := by
  unfold checkMissingValue
  by_cases unknown : m = .unknown
  · simp [unknown]
  · rw [if_neg unknown, require_eq_ok_iff]
    simp [unknown]

/-- A catalog is built exactly if its offset is within a day and the overridden rules and factors
are sound. -/
theorem catalog_eq_ok_iff {c : Config} {catalog : Catalog} :
    c.catalog = .ok catalog ↔ c.offsetSeconds = .ok catalog.offset.seconds ∧
      catalog = c.overrides catalog.offset ∧ catalog.validate = .ok () := by
  unfold Config.catalog Offset.ofSeconds?
  cases told : c.offsetSeconds with
  | error fault =>
    constructor
    · intro built
      cases built
    · intro h
      obtain ⟨seconds, _⟩ := h
      cases seconds
  | ok n =>
    rw [Except.ok.injEq]
    dsimp only [bind, Except.bind]
    constructor
    · intro built
      by_cases within : -86399 ≤ n ∧ n ≤ 86399
      · rw [dif_pos within] at built
        dsimp only at built
        split at built
        case h_1 => cases built
        case h_2 valid =>
          obtain rfl := Except.ok.inj built
          exact ⟨rfl, rfl, valid⟩
      · rw [dif_neg within] at built
        cases built
    · intro h
      obtain ⟨rfl, same, valid⟩ := h
      rw [dif_pos catalog.offset.inRange]
      dsimp only
      rw [← same, valid]

theorem validate_eq_ok_iff {c : Config} : c.validate = .ok () ↔ c.Accepted := by
  unfold validate
  simp only [bind_eq_ok_iff, forM_eq_ok_iff, Table.forall_mem_entries_iff Metric.mem_all,
    require_eq_ok_iff, checkMissingValue_eq_ok_iff, discard_eq_ok_iff, decide_eq_true_eq,
    Bool.and_eq_true]
  constructor
  · intro h
    obtain ⟨port, path, pool, positive, offset, missing, catalog⟩ := h
    exact ⟨port, path, pool, fun s => positive s s.mem_all, offset, missing, catalog⟩
  · intro h
    obtain ⟨port, path, pool, positive, offset, missing, catalog⟩ := h
    exact ⟨port, path, pool, fun s _ => positive s, offset, missing, catalog⟩

theorem load_eq_ok_iff {text : String} {c : Config} :
    load text = .ok c ↔ read? text = some c ∧ c.Accepted := by
  unfold load
  cases document : read? text with
  | none => simp
  | some d =>
    simp only [Option.some.injEq]
    cases checked : d.validate with
    | error fault =>
      constructor
      · intro h
        cases h
      · intro h
        obtain ⟨rfl, accepted⟩ := h
        rw [validate_eq_ok_iff.mpr accepted] at checked
        cases checked
    | ok u =>
      constructor
      · intro same
        obtain rfl : d = c := Except.ok.inj same
        exact ⟨rfl, validate_eq_ok_iff.mp checked⟩
      · intro h
        obtain ⟨rfl, _⟩ := h
        rfl

end Config
end FleetHealth
