import FleetHealth.Refresh
import FleetHealth.Proofs.DayAverages
/-!
The order of trends. Points come by day and of one day by metric, whether they were bucketed or
taken from a source's averages, and no day has a metric twice unless the source repeats the day. A
store never does, so with a store every metric's series ascends strictly by day.
-/
namespace FleetHealth

namespace TrendPoint

/-- An earlier day, or an earlier metric of the same day. -/
def Precedes (p q : TrendPoint) : Prop :=
  p.date.dayNumber < q.date.dayNumber ∨ p.date = q.date ∧ p.metric.rank < q.metric.rank

/-- Likewise, and the same metric of the same day is in order too. -/
def InOrder (p q : TrendPoint) : Prop :=
  p.date.dayNumber < q.date.dayNumber ∨ p.date = q.date ∧ p.metric.rank ≤ q.metric.rank

def EarlierDay (p q : TrendPoint) : Prop := p.date.dayNumber < q.date.dayNumber

variable {p q : TrendPoint}

theorem Precedes.inOrder (before : p.Precedes q) : p.InOrder q := by
  rcases before with day | ⟨day, metric⟩
  · exact .inl day
  · exact .inr ⟨day, Nat.le_of_lt metric⟩

theorem Precedes.earlierDay (before : p.Precedes q) (metric : p.metric = q.metric) :
    p.EarlierDay q := by
  rcases before with day | ⟨_, rank⟩
  · exact day
  · rw [metric] at rank
    exact absurd rank (Nat.lt_irrefl _)

theorem compare_key (p q : TrendPoint) : compare p.key q.key =
    (compare p.date.dayNumber q.date.dayNumber).then (compare p.metric.rank q.metric.rank) := rfl

theorem precedes_of_compare (order : compare p.key q.key = .lt) : p.Precedes q := by
  rw [compare_key, Ordering.then_eq_lt] at order
  rcases order with day | ⟨day, metric⟩
  · exact .inl (Std.compare_eq_lt.mp day)
  · exact .inr ⟨Std.LawfulEqOrd.eq_of_compare day, Std.compare_eq_lt.mp metric⟩

theorem inOrder_of_compare (order : (compare p.key q.key).isLE = true) : p.InOrder q := by
  cases exact_order : compare p.key q.key with
  | lt => exact (precedes_of_compare exact_order).inOrder
  | eq =>
    have same : p.key = q.key := Std.LawfulEqOrd.eq_of_compare exact_order
    exact .inr ⟨congrArg BucketKey.date same,
      Nat.le_of_eq (congrArg (fun k => k.metric.rank) same)⟩
  | gt => rw [exact_order] at order; cases order

end TrendPoint

section Sources

variable {conversions : Conversions} {offset : Offset} {samples : List Sample}
  {points : List TrendPoint} {days : List DayAverages}

theorem bucketByDay?_known (bucketed : bucketByDay? conversions offset samples = some points) :
    ∀ p ∈ points, p.metric ≠ .unknown := by
  obtain ⟨_, rfl⟩ := bucketByDay?_eq_some_iff.mp bucketed
  intro p member unknown
  exact (mem_points_fill.mp member).1 (cell_of_unknown samples unknown)

theorem bucketByDay?_ascending (bucketed : bucketByDay? conversions offset samples = some points) :
    points.Pairwise TrendPoint.Precedes := by
  obtain ⟨_, rfl⟩ := bucketByDay?_eq_some_iff.mp bucketed
  exact (Buckets.points_ascending conversions _).imp TrendPoint.precedes_of_compare

theorem flattenDays_known (conversions : Conversions) (days : List DayAverages) :
    ∀ p ∈ flattenDays conversions days, p.metric ≠ .unknown := by
  intro p member
  obtain ⟨day, _, inside⟩ := mem_flattenDays.mp member
  exact (DayAverages.mem_points.mp inside).2.1

theorem flattenDays_inOrder (conversions : Conversions) (days : List DayAverages) :
    (flattenDays conversions days).Pairwise TrendPoint.InOrder :=
  (flattenDays_sorted conversions days).imp TrendPoint.inOrder_of_compare

end Sources

namespace Store

/-- Groups of unknown metrics are passed over, so no day has an average of one. -/
theorem collectDays_known {groups : DatedGroups} {date : Date}
    {averages : Table Metric Float} (found : (collectDays groups)[date]? = some averages) :
    averages .unknown = none := by
  induction groups using List.reverseRecOn generalizing date averages with
  | nil => simp [collectDays] at found
  | append_singleton groups e ih =>
    rw [collectDays, List.foldl_append, ← collectDays, List.foldl_cons, List.foldl_nil] at found
    dsimp only at found
    split at found
    · exact ih found
    · rename_i known
      rw [Std.TreeMap.getElem?_alter] at found
      split at found
      · obtain rfl := Option.some.inj found
        rw [Table.set_of_ne _ _ (Ne.symm known)]
        cases earlier : (collectDays groups)[e.1.1]? with
        | none => rfl
        | some t => exact ih earlier
      · exact ih found

theorem collectedDays_ascending (dated : DatedGroups) :
    (collectedDays dated).Pairwise (fun d e => d.date.dayNumber < e.date.dayNumber) := by
  rw [collectedDays, List.pairwise_map]
  exact (collectDays dated).ordered_keys_toList.imp (Std.compare_eq_lt (α := Int)).mp

variable {store : Store} {w : Window} {offset : Offset} {days : List DayAverages}

/-- The days a store answers ascend strictly, whatever its rows hold. -/
theorem dailyAverages_ascending (read : store.dailyAverages w offset = .ok days) :
    days.Pairwise (fun d e => d.date.dayNumber < e.date.dayNumber) := by
  obtain ⟨dated, _, rfl⟩ := dailyAverages_eq_ok_iff.mp read
  exact collectedDays_ascending dated

theorem dailyAverages_known (read : store.dailyAverages w offset = .ok days) :
    ∀ day ∈ days, day.averages .unknown = none := by
  obtain ⟨dated, _, rfl⟩ := dailyAverages_eq_ok_iff.mp read
  intro day member
  obtain ⟨⟨date, averages⟩, entry, rfl⟩ := List.mem_map.mp member
  exact collectDays_known (Std.TreeMap.mem_toList_iff_getElem?_eq_some.mp entry)

theorem dates_distinct (ascending : days.Pairwise (fun d e => d.date.dayNumber < e.date.dayNumber)) :
    days.Pairwise (fun d e => d.date ≠ e.date) := by
  refine ascending.imp ?_
  intro d e earlier same
  rw [same] at earlier
  exact Int.lt_irrefl _ earlier

end Store

section Series

theorem foldl_join (first rest : List TrendPoint) :
    rest.foldl (fun g p => some (g.getD [] ++ [p])) (some first) = some (first ++ rest) := by
  induction rest generalizing first with
  | nil => simp
  | cons p rest ih =>
    rw [List.foldl_cons, Option.getD_some, ih]
    simp

/-- The group of a metric is its points, in their order; a metric without points has none. -/
theorem mem_seriesByMetric {points : List TrendPoint} {m : Metric} {g : List TrendPoint} :
    (m, g) ∈ seriesByMetric points ↔ g ≠ [] ∧ g = points.filter (fun p => p.metric = m) := by
  have lookup := KeyedFold.getElem?_foldl_alter TrendPoint.metric
    (fun (g : Option (List TrendPoint)) p => some (g.getD [] ++ [p])) points m
    (∅ : Std.TreeMap Metric (List TrendPoint))
  rw [Std.TreeMap.getElem?_emptyc] at lookup
  rw [seriesByMetric, Std.TreeMap.mem_toList_iff_getElem?_eq_some, lookup]
  cases own : points.filter (fun p => p.metric = m) with
  | nil => simp
  | cons p rest =>
    rw [List.foldl_cons, Option.getD_none, foldl_join]
    constructor
    · intro found
      obtain rfl := Option.some.inj found
      exact ⟨List.cons_ne_nil _ _, rfl⟩
    · intro h
      obtain ⟨_, rfl⟩ := h
      rfl

/-- Where no day has a metric twice, the points of one metric ascend strictly by day. -/
theorem filter_metric_ascending {points : List TrendPoint}
    (ordered : points.Pairwise TrendPoint.Precedes) (m : Metric) :
    (points.filter (fun p => p.metric = m)).Pairwise TrendPoint.EarlierDay := by
  refine (ordered.sublist List.filter_sublist).imp_of_mem ?_
  intro p q first second before
  apply before.earlierDay
  rw [of_decide_eq_true (List.mem_filter.mp first).2, of_decide_eq_true (List.mem_filter.mp second).2]

end Series

namespace Batches

variable {b : Batches} {source : Source} {c : Catalog} {plan : RefreshPlan} {now : Instant}
  {t : Trends}

/-- Trends are bucketed from the merged batches or flattened from the days the source answered. -/
theorem trends?_cases (published : b.trends? source c plan now = some t) :
    (t.source = .bucketed ∧ bucketByDay? c.conversions c.offset b.merged = some t.points) ∨
      (t.source = .preAggregated ∧ ∃ w days,
        Window.endingAt? now plan.historicalWindow = some w ∧
        source.days w c.offset = some days ∧ t.points = flattenDays c.conversions days) := by
  have bucketed : b.bucketed? c now = some t →
      t.source = .bucketed ∧ bucketByDay? c.conversions c.offset b.merged = some t.points := by
    intro found
    obtain ⟨points, filled, rfl⟩ := Option.map_eq_some_iff.mp found
    exact ⟨rfl, filled⟩
  unfold trends? at published
  split at published
  · obtain ⟨w, window, answered⟩ := Option.bind_eq_some_iff.mp published
    cases read : source.days w c.offset with
    | none =>
      rw [read] at answered
      exact .inl (bucketed answered)
    | some days =>
      rw [read] at answered
      obtain rfl := Option.some.inj answered
      exact .inr ⟨rfl, w, days, window, read, rfl⟩
  · exact .inl (bucketed published)

theorem trends?_known (published : b.trends? source c plan now = some t) :
    ∀ p ∈ t.points, p.metric ≠ .unknown := by
  rcases trends?_cases published with ⟨_, bucketed⟩ | ⟨_, _, days, _, _, points⟩
  · exact bucketByDay?_known bucketed
  · rw [points]
    exact flattenDays_known c.conversions days

theorem trends?_inOrder (published : b.trends? source c plan now = some t) :
    t.points.Pairwise TrendPoint.InOrder := by
  rcases trends?_cases published with ⟨_, bucketed⟩ | ⟨_, _, days, _, _, points⟩
  · exact (bucketByDay?_ascending bucketed).imp TrendPoint.Precedes.inOrder
  · rw [points]
    exact flattenDays_inOrder c.conversions days

theorem trends?_ascending (published : b.trends? source c plan now = some t)
    (unrepeated : t.source = .bucketed ∨ ∀ w days,
      Window.endingAt? now plan.historicalWindow = some w → source.days w c.offset = some days →
        days.Pairwise (fun d e => d.date ≠ e.date)) :
    t.points.Pairwise TrendPoint.Precedes := by
  rcases trends?_cases published with ⟨_, bucketed⟩ | ⟨taken, w, days, window, read, points⟩
  · exact bucketByDay?_ascending bucketed
  · rcases unrepeated with bucketed | distinct
    · rw [taken] at bucketed
      cases bucketed
    · rw [points]
      exact (flattenDays_ascending (distinct w days window read)).imp
        TrendPoint.precedes_of_compare

theorem trends?_of_store {store : Store} (published : b.trends? store.source c plan now = some t) :
    t.points.Pairwise TrendPoint.Precedes := by
  refine trends?_ascending published (.inr ?_)
  intro w days _ answered
  have answered : (store.dailyAverages w c.offset).toOption = some days := answered
  cases read : store.dailyAverages w c.offset with
  | error e => rw [read] at answered; cases answered
  | ok found =>
    rw [read] at answered
    obtain rfl := Option.some.inj answered
    exact Store.dates_distinct (Store.dailyAverages_ascending read)

end Batches

/-- Trends of any source, the days a store answers, and the series of trends with a store. -/
theorem published_trends_ordered :
    (∀ (b : Batches) (source : Source) (c : Catalog) (plan : RefreshPlan) (now : Instant)
        (t : Trends), b.trends? source c plan now = some t →
      (∀ p ∈ t.points, p.metric ≠ .unknown) ∧ t.points.Pairwise TrendPoint.InOrder ∧
      ((t.source = .bucketed ∨ ∀ w days,
          Window.endingAt? now plan.historicalWindow = some w →
          source.days w c.offset = some days → days.Pairwise (fun d e => d.date ≠ e.date)) →
        t.points.Pairwise TrendPoint.Precedes)) ∧
    (∀ (store : Store) (w : Window) (offset : Offset) (days : List DayAverages),
      store.dailyAverages w offset = .ok days →
      days.Pairwise (fun d e => d.date.dayNumber < e.date.dayNumber) ∧
      ∀ day ∈ days, day.averages .unknown = none) ∧
    (∀ (store : Store) (b : Batches) (c : Catalog) (plan : RefreshPlan) (now : Instant)
        (t : Trends), b.trends? store.source c plan now = some t →
      (∀ m, (t.series m).Pairwise TrendPoint.EarlierDay) ∧
      ∀ e ∈ seriesByMetric t.points, e.2.Pairwise TrendPoint.EarlierDay) := by
  refine ⟨?_, ?_, ?_⟩
  · intro b source c plan now t published
    exact ⟨Batches.trends?_known published, Batches.trends?_inOrder published,
      Batches.trends?_ascending published⟩
  · intro store w offset days read
    exact ⟨Store.dailyAverages_ascending read, Store.dailyAverages_known read⟩
  · intro store b c plan now t published
    have ordered := Batches.trends?_of_store published
    refine ⟨fun m => filter_metric_ascending ordered m, ?_⟩
    intro e member
    obtain ⟨m, g⟩ := e
    obtain ⟨_, rfl⟩ := mem_seriesByMetric.mp member
    exact filter_metric_ascending ordered m

end FleetHealth
