import FleetHealth.Schedule
import FleetHealth.Proofs.Acceptance
import FleetHealth.Proofs.Buckets
import FleetHealth.Proofs.Windows
/-!
Refreshes under an accepted configuration. The short window and the timers are always sound; the
long window has no upper bound in hours and may begin before the first representable moment, and
bucketing needs a day for every sample at the offset.
-/
namespace FleetHealth

/-- A whole refresh at one moment: the long window, the short window, then the trends. -/
def Batches.refresh? (b : Batches) (source : Source) (c : Catalog) (plan : RefreshPlan)
    (now : Instant) : Option (Batches × Trends) := do
  let b ← b.refreshHistorical? source plan now
  let b ← b.refreshLive? source plan now
  let trends ← b.trends? source c plan now
  return (b, trends)

/-- Either the source answers the daily averages asked for, or all its samples have a day. -/
def Source.Dated (source : Source) (c : Catalog) (plan : RefreshPlan) (w v : Window) : Prop :=
  (plan.useDailyAverages = true ∧ (source.days w c.offset).isSome = true) ∨
    ∀ s ∈ Sample.merge ((source.samples w plan.historicalLimit .ascending).getD [])
      ((source.samples v plan.liveLimit .descending).getD []), s.Datable c.offset

namespace Batches

variable {b : Batches} {source : Source} {c : Catalog} {plan : RefreshPlan} {now : Instant}
  {w v : Window}

theorem isSome_bucketed?_iff :
    (b.bucketed? c now).isSome = true ↔ ∀ s ∈ b.merged, s.Datable c.offset := by
  rw [bucketed?, Option.isSome_map, isSome_bucketByDay?_iff]

theorem isSome_trends?_iff (long : Window.endingAt? now plan.historicalWindow = some w) :
    (b.trends? source c plan now).isSome = true ↔
      (plan.useDailyAverages = true ∧ (source.days w c.offset).isSome = true) ∨
        ∀ s ∈ b.merged, s.Datable c.offset := by
  unfold trends?
  by_cases asked : plan.useDailyAverages = true
  · rw [if_pos asked, long, Option.bind_some]
    cases source.days w c.offset with
    | some days => simp [asked]
    | none => simp [isSome_bucketed?_iff]
  · rw [if_neg asked, isSome_bucketed?_iff]
    simp [asked]

/-- Where both windows can be represented, a refresh fails for want of a day only. -/
theorem isSome_refresh?_iff (long : Window.endingAt? now plan.historicalWindow = some w)
    (short : Window.endingAt? now plan.liveWindow = some v) :
    (b.refresh? source c plan now).isSome = true ↔ source.Dated c plan w v := by
  let b' : Batches := ⟨source.stations.getD b.stations,
    (source.samples w plan.historicalLimit .ascending).getD [],
    (source.samples v plan.liveLimit .descending).getD []⟩
  have refreshed : b.refresh? source c plan now =
      (b'.trends? source c plan now).map (fun trends => (b', trends)) := by
    simp only [refresh?, refreshHistorical?, refreshLive?, long, short, Option.map_some,
      Option.bind_eq_bind, Option.bind_some]
    show (b'.trends? source c plan now).bind _ = _
    cases b'.trends? source c plan now <;> rfl
  rw [refreshed, Option.isSome_map, isSome_trends?_iff long]
  rfl

theorem refresh?_of_long_window (missing : Window.endingAt? now plan.historicalWindow = none) :
    b.refresh? source c plan now = none := by
  rw [refresh?, refreshHistorical?, missing]
  rfl

end Batches

namespace RefreshSettings

variable {now : Instant}

theorem exists_live_window (s : RefreshSettings) (since : 0 ≤ now.millis)
    (before : now.millis < 253402300800000) :
    ∃ v, Window.endingAt? now s.plan.liveWindow = some v := by
  have secs := s.liveWindowSecs.toNat_lt
  have window : s.plan.liveWindow = 1000 * s.liveWindowSecs.toNat := rfl
  rw [← Option.isSome_iff_exists, Window.isSome_endingAt?_iff, window]
  omega

/-- The long window begins at a moment that can be represented unless it has too many hours. -/
theorem historical_window_iff (s : RefreshSettings) (since : 0 ≤ now.millis)
    (before : now.millis < 253402300800000) :
    (Window.endingAt? now s.plan.historicalWindow).isSome = true ↔
      3600000 * (s.historicalWindowHours.toNat : Int) ≤ now.millis + 8334601228800000 := by
  have window : s.plan.historicalWindow = 3600000 * s.historicalWindowHours.toNat := rfl
  rw [Window.isSome_endingAt?_iff, window]
  omega

theorem plan_positive {s : RefreshSettings}
    (positive : ∀ setting : PositiveSetting, 0 < setting.value s) : s.plan.Positive := by
  have historical : 0 < s.historicalIntervalSecs.toNat := positive .historicalInterval
  have live : 0 < s.liveIntervalMillis.toNat := positive .liveInterval
  have stats : 0 < s.statsIntervalSecs.toNat := positive .statsInterval
  refine ⟨?_, live, ?_⟩
  · show 0 < 1000 * s.historicalIntervalSecs.toNat
    omega
  · show 0 < 1000 * s.statsIntervalSecs.toNat
    omega

end RefreshSettings

/- A source whose samples are of the last representable moment. -/
def Source.lastMoment : Source where
  stations := some []
  samples _ _ _ := some [⟨1, "bs-1", .latency, 1.0, some ⟨8210266876799999, by decide⟩, none⟩]
  days _ _ := none

namespace Config

/- The required settings, and sections that follow them. -/
def textWith (sections : String) : String :=
  "[server]\nport = 8080\nhost = \"127.0.0.1\"\n\n[database]\npath = \"health.db\"\n" ++
    "max_pool_size = 4\n\n" ++ sections

/- Thirty days. -/
def monthText : String := textWith "[refresh]\nhistorical_window_hours = 720\n"

/- The greatest number of hours there is. -/
def vastText : String := textWith "[refresh]\nhistorical_window_hours = 4294967295\n"

/- An hour east of UTC. -/
def eastText : String := textWith "[reporting]\nutc_offset_minutes = 60\n"

/- The hours of the long window, whether daily averages are asked for, and the offset in minutes. -/
def longWindowAndOffset (c : Config) : UInt32 × Bool × Int32 :=
  (c.refresh.historicalWindowHours, c.refresh.useDailyAverages, c.utcOffsetMinutes)

theorem exists_load {text : String} {values : UInt32 × Bool × Int32}
    (loaded : (load text).toOption.map longWindowAndOffset = some values) :
    ∃ c, load text = .ok c ∧ c.longWindowAndOffset = values := by
  cases result : load text with
  | error e =>
    rw [result] at loaded
    cases loaded
  | ok c =>
    rw [result] at loaded
    exact ⟨c, rfl, Option.some.inj loaded⟩

end Config

/-- Under an accepted configuration there is a catalog, no timer is idle and every live refresh
succeeds; a whole refresh succeeds exactly if the long window begins at a moment that can be
represented and the days it needs exist. -/
theorem accepted_refresh_iff {text : String} {c : Config} (accepted : Config.load text = .ok c)
    {now : Instant} (since : 0 ≤ now.millis) (before : now.millis < 253402300800000) :
    ∃ catalog, c.catalog = .ok catalog ∧ c.refresh.plan.Positive ∧ ∀ b source,
      (Batches.refreshLive? b source c.refresh.plan now).isSome = true ∧
      ((Batches.refreshHistorical? b source c.refresh.plan now).isSome = true ↔
        3600000 * (c.refresh.historicalWindowHours.toNat : Int) ≤
          now.millis + 8334601228800000) ∧
      ((Batches.refresh? b source catalog c.refresh.plan now).isSome = true ↔
        3600000 * (c.refresh.historicalWindowHours.toNat : Int) ≤
          now.millis + 8334601228800000 ∧
        ∀ w v, Window.endingAt? now c.refresh.plan.historicalWindow = some w →
          Window.endingAt? now c.refresh.plan.liveWindow = some v →
            source.Dated catalog c.refresh.plan w v) := by
  obtain ⟨_, checked⟩ := Config.load_eq_ok_iff.mp accepted
  obtain ⟨catalog, built⟩ := checked.catalog
  have fits := c.refresh.historical_window_iff since before
  obtain ⟨v, short⟩ := c.refresh.exists_live_window since before
  refine ⟨catalog, built, RefreshSettings.plan_positive checked.positive, ?_⟩
  intro b source
  refine ⟨?_, ?_, ?_⟩
  · rw [Batches.refreshLive?, short]
    rfl
  · rw [Batches.refreshHistorical?, Option.isSome_map]
    exact fits
  · rw [← fits]
    cases long : Window.endingAt? now c.refresh.plan.historicalWindow with
    | none => simp [Batches.refresh?_of_long_window long]
    | some w =>
      rw [Batches.isSome_refresh?_iff long short]
      constructor
      · intro dated
        refine ⟨rfl, ?_⟩
        intro w' v' same same'
        obtain rfl := Option.some.inj same
        obtain rfl : v = v' := Option.some.inj (short.symm.trans same')
        exact dated
      · intro h
        obtain ⟨_, dated⟩ := h
        exact dated w v rfl short

theorem accepted_month_refreshes : ∃ c catalog, Config.load Config.monthText = .ok c ∧
    c.catalog = .ok catalog ∧ c.refresh.plan.Positive ∧ ∀ b source,
      (Batches.refreshHistorical? b source c.refresh.plan .epoch).isSome = true := by
  obtain ⟨c, accepted, values⟩ : ∃ c, Config.load Config.monthText = .ok c ∧
      c.longWindowAndOffset = (720, false, 0) := Config.exists_load (by decide +kernel)
  obtain ⟨hours, _⟩ := Prod.mk.inj values
  have now : 0 ≤ Instant.epoch.millis ∧ Instant.epoch.millis < 253402300800000 := by decide
  obtain ⟨catalog, built, positive, refreshes⟩ := accepted_refresh_iff accepted now.1 now.2
  refine ⟨c, catalog, accepted, built, positive, ?_⟩
  intro b source
  obtain ⟨_, historical, _⟩ := refreshes b source
  rw [historical, hours]
  decide

/-- Two accepted configurations that fail: the greatest number of hours reaches back too far from
1970, and an hour east of UTC the last moment has no day. -/
theorem accepted_refresh_fails :
    (∃ c catalog, Config.load Config.vastText = .ok c ∧ c.catalog = .ok catalog ∧ ∀ b source,
      Batches.refreshHistorical? b source c.refresh.plan .epoch = none) ∧
    (∃ c catalog, Config.load Config.eastText = .ok c ∧ c.catalog = .ok catalog ∧ ∀ b,
      Batches.refresh? b .lastMoment catalog c.refresh.plan .epoch = none) := by
  have now : 0 ≤ Instant.epoch.millis ∧ Instant.epoch.millis < 253402300800000 := by decide
  constructor
  · obtain ⟨c, accepted, values⟩ : ∃ c, Config.load Config.vastText = .ok c ∧
        c.longWindowAndOffset = (4294967295, false, 0) := Config.exists_load (by decide +kernel)
    obtain ⟨hours, _⟩ := Prod.mk.inj values
    obtain ⟨catalog, built⟩ := (Config.load_eq_ok_iff.mp accepted).2.catalog
    refine ⟨c, catalog, accepted, built, ?_⟩
    intro b source
    have fits := c.refresh.historical_window_iff now.1 now.2
    rw [hours] at fits
    have missing : ¬(Window.endingAt? .epoch c.refresh.plan.historicalWindow).isSome = true :=
      fun h => absurd (fits.mp h) (by decide)
    rw [Batches.refreshHistorical?, Option.not_isSome_iff_eq_none.mp missing]
    rfl
  · obtain ⟨c, accepted, values⟩ : ∃ c, Config.load Config.eastText = .ok c ∧
        c.longWindowAndOffset = (168, false, 60) := Config.exists_load (by decide +kernel)
    obtain ⟨hours, rest⟩ := Prod.mk.inj values
    obtain ⟨asked, minutes⟩ := Prod.mk.inj rest
    obtain ⟨catalog, built⟩ := (Config.load_eq_ok_iff.mp accepted).2.catalog
    refine ⟨c, catalog, accepted, built, ?_⟩
    intro b
    have offset : catalog.offset.seconds = 3600 := by
      have told : c.offsetSeconds = .ok 3600 := by
        rw [Config.offsetSeconds, minutes]
        rfl
      rw [(Config.catalog_eq_ok_iff.mp built).1] at told
      exact Except.ok.inj told
    have fits := c.refresh.historical_window_iff now.1 now.2
    rw [hours] at fits
    obtain ⟨w, long⟩ := Option.isSome_iff_exists.mp (fits.mpr (by decide))
    obtain ⟨v, short⟩ := c.refresh.exists_live_window now.1 now.2
    refine Option.not_isSome_iff_eq_none.mp (fun given => ?_)
    rcases (Batches.isSome_refresh?_iff long short).mp given with ⟨daily, _⟩ | dated
    · rw [show c.refresh.plan.useDailyAverages = false from asked] at daily
      cases daily
    · have day := dated _ List.mem_cons_self _ rfl (by decide)
      rw [Instant.localDate?, offset] at day
      revert day
      decide

end FleetHealth
