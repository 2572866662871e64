import Mathlib.Data.List.Induction
import Mathlib.Data.List.TakeWhile
import FleetHealth.Stream
/-!
What a stream delivers. However publications and the subscriber's moves interleave, the client
receives publications in their order and none twice, from the one found at first; while nothing is
pending, and when the stream ends because publishing ended, the last one received is the last one
published. Pings change none of this.
-/
namespace FleetHealth

namespace StreamMove

variable {α : Type}

def published? : StreamMove α → Option α
  | publish a => some a
  | _ => none

def endsPublishing : StreamMove α → Bool
  | dropPublisher => true
  | _ => false

def reads : StreamMove α → Bool
  | read => true
  | _ => false

def isPing : StreamMove α → Bool
  | ping => true
  | pinged => true
  | _ => false

/-- The values published through a run, the first being there from the start. -/
def publications (a : α) (ms : List (StreamMove α)) : List α :=
  a :: (ms.takeWhile (fun m => !m.endsPublishing)).filterMap published?

/-- The part of a run in which the channel has not been read. -/
def beforeReading (ms : List (StreamMove α)) : List (StreamMove α) :=
  ms.takeWhile (fun m => !m.reads)

/-- The place of the publication that the first reading finds. -/
def firstPlace (a : α) (ms : List (StreamMove α)) : Nat :=
  (publications a (beforeReading ms)).length - 1

section Concat

variable {p : StreamMove α → Bool} {a : α} {ms : List (StreamMove α)} {m : StreamMove α}

theorem takeWhile_concat_of_all (all : ∀ x ∈ ms, p x = true) :
    (ms ++ [m]).takeWhile p = ms ++ if p m then [m] else [] := by
  rw [List.takeWhile_append_of_pos all, List.takeWhile_cons, List.takeWhile_nil]

theorem takeWhile_concat_of_exists {x : StreamMove α} (inside : x ∈ ms) (stops : p x = false) :
    (ms ++ [m]).takeWhile p = ms.takeWhile p := by
  have shorter : (ms.takeWhile p).length ≠ ms.length := by
    intro same
    have whole := (List.takeWhile_sublist p).eq_of_length same
    have passes := List.takeWhile_eq_self_iff.mp whole x inside
    rw [stops] at passes
    cases passes
  rw [List.takeWhile_append, if_neg shorter]

theorem publications_concat (publishing : dropPublisher ∉ ms) :
    publications a (ms ++ [m]) = publications a ms ++ m.published?.toList := by
  have all : ∀ x ∈ ms, (!x.endsPublishing) = true := by
    intro x inside
    cases x with
    | dropPublisher => exact absurd inside publishing
    | _ => rfl
  rw [publications, publications, takeWhile_concat_of_all all,
    List.takeWhile_eq_self_iff.mpr all, List.filterMap_append, List.cons_append]
  cases m <;> rfl

theorem publications_concat_of_ended (ended : dropPublisher ∈ ms) :
    publications a (ms ++ [m]) = publications a ms := by
  rw [publications, publications, takeWhile_concat_of_exists ended rfl]

theorem reads_of_unread (unread : read ∉ ms) : ∀ x ∈ ms, (!x.reads) = true := by
  intro x inside
  cases x with
  | read => exact absurd inside unread
  | _ => rfl

theorem firstPlace_of_unread (a : α) (unread : read ∉ ms) :
    firstPlace a ms = (publications a ms).length - 1 := by
  rw [firstPlace, beforeReading, List.takeWhile_eq_self_iff.mpr (reads_of_unread unread)]

theorem firstPlace_concat_read (a : α) (unread : read ∉ ms) :
    firstPlace a (ms ++ [read]) = firstPlace a ms := by
  rw [firstPlace, firstPlace, beforeReading, beforeReading,
    takeWhile_concat_of_all (reads_of_unread unread),
    List.takeWhile_eq_self_iff.mpr (reads_of_unread unread)]
  simp [reads]

theorem firstPlace_concat (a : α) (reading : read ∈ ms) :
    firstPlace a (ms ++ [m]) = firstPlace a ms := by
  rw [firstPlace, firstPlace, beforeReading, beforeReading,
    takeWhile_concat_of_exists reading rfl]

end Concat

end StreamMove

namespace Stream

open StreamMove

variable {α : Type}

section Sent

/-- Values of the first so many places, from one place on, in their order and that place first. -/
def Sent (published : List α) (first bound : Nat) (values : List α) : Prop :=
  values.Sublist ((published.take bound).drop first) ∧
    (values ≠ [] → values.head? = published[first]?)

variable {published : List α} {first bound : Nat} {values : List α}

theorem sent_nil (published : List α) (first bound : Nat) : Sent published first bound [] :=
  ⟨List.nil_sublist _, fun some_sent => absurd rfl some_sent⟩

theorem Sent.mono (sent : Sent published first bound values) {later : Nat}
    (after : bound ≤ later) : Sent published first later values :=
  ⟨sent.1.trans ((List.take_sublist_take_left after).drop first), sent.2⟩

theorem Sent.first_lt (sent : Sent published first bound values) (some_sent : values ≠ []) :
    first < bound := by
  have longer := sent.1.length_le
  have positive := List.length_pos_iff.mpr some_sent
  rw [List.length_drop, List.length_take] at longer
  omega

theorem Sent.publish (sent : Sent published first bound values) (more : List α)
    (within : bound ≤ published.length) : Sent (published ++ more) first bound values := by
  refine ⟨?_, ?_⟩
  · rw [List.take_append_of_le_length within]
    exact sent.1
  · intro some_sent
    have early := sent.first_lt some_sent
    rw [sent.2 some_sent, List.getElem?_append_left (by omega)]

/-- The value at the bound may be sent next. -/
theorem Sent.send (sent : Sent published first bound values) {b : α}
    (next : published[bound]? = some b) (opening : values = [] → bound = first) :
    Sent published first (bound + 1) (values ++ [b]) := by
  have within : bound < published.length := (List.getElem?_eq_some_iff.mp next).1
  have early : first ≤ (published.take bound).length := by
    rw [List.length_take]
    by_cases none_sent : values = []
    · have := opening none_sent
      omega
    · have := sent.first_lt none_sent
      omega
  refine ⟨?_, ?_⟩
  · rw [List.take_add_one, next, Option.toList_some, List.drop_append_of_le_length early]
    exact sent.1.append (List.Sublist.refl _)
  · intro _
    cases values with
    | nil => rw [List.nil_append, List.head?_cons, ← opening rfl, next]
    | cons v rest => exact sent.2 (List.cons_ne_nil v rest)

end Sent

section Moves

/-- A move the subscriber can make where it is, or one that others make. -/
def Allows (s : Stream α) : StreamMove α → Prop
  | .publish _ | .dropPublisher | .dropClient => True
  | .notice | .ping => s.phase = .waiting
  | .read => s.phase = .connecting ∨ s.phase = .told
  | .sent => ∃ a, s.phase = .sending a
  | .pinged => s.phase = .pinging
  | .lost => (∃ a, s.phase = .sending a) ∨ s.phase = .pinging

/-- All that a move can do. -/
inductive Moved (s : Stream α) : StreamMove α → Stream α → Prop
  | publish (a : α) : Moved s (.publish a) { s with channel := s.channel.publish a }
  | close : Moved s .dropPublisher { s with channel := s.channel.close }
  | leave : Moved s .dropClient { s with clientGone := true }
  | blocked {m : StreamMove α} (blocked : ¬s.Allows m) : Moved s m s
  | told (waiting : s.phase = .waiting) (pending : s.seen ≠ s.channel.version) :
    Moved s .notice { s with seen := s.channel.version, phase := .told }
  | unchanged (waiting : s.phase = .waiting) : Moved s .notice s
  | finished (waiting : s.phase = .waiting) (nothing : s.seen = s.channel.version)
    (closed : s.channel.isOpen = false) : Moved s .notice { s with phase := .ended }
  | read (ready : s.phase = .connecting ∨ s.phase = .told) :
    Moved s .read { s with seen := s.channel.version, phase := .sending s.channel.latest }
  | sent {a : α} (sending : s.phase = .sending a) :
    Moved s .sent { s with phase := .waiting, received := a :: s.received }
  | ping (waiting : s.phase = .waiting) : Moved s .ping { s with phase := .pinging }
  | pinged (pinging : s.phase = .pinging) :
    Moved s .pinged { s with phase := .waiting, pings := s.pings + 1 }
  | lost (under_way : (∃ a, s.phase = .sending a) ∨ s.phase = .pinging) :
    Moved s .lost { s with phase := .ended }

theorem moved_notice (s : Stream α) : Moved s .notice (s.move .notice) := by
  cases phase : s.phase with
  | waiting =>
    simp only [move, phase]
    split
    · rename_i pending
      exact .told phase pending
    · rename_i nothing
      split
      · exact .unchanged phase
      · rename_i closed
        exact .finished phase (Decidable.not_not.mp nothing) (Bool.eq_false_iff.mpr closed)
  | _ =>
    simp only [move, phase]
    exact .blocked (by simp [Allows, phase])

theorem moved (s : Stream α) (m : StreamMove α) : Moved s m (s.move m) := by
  cases m with
  | publish a => exact .publish a
  | dropPublisher => exact .close
  | dropClient => exact .leave
  | notice => exact moved_notice s
  | read =>
    cases phase : s.phase with
    | connecting => simpa only [move, phase] using .read (.inl phase)
    | told => simpa only [move, phase] using .read (.inr phase)
    | _ => simpa only [move, phase] using .blocked (by simp [Allows, phase])
  | sent =>
    cases phase : s.phase with
    | sending a => simpa only [move, phase] using .sent phase
    | _ => simpa only [move, phase] using .blocked (by simp [Allows, phase])
  | ping =>
    cases phase : s.phase with
    | waiting => simpa only [move, phase] using .ping phase
    | _ => simpa only [move, phase] using .blocked (by simp [Allows, phase])
  | pinged =>
    cases phase : s.phase with
    | pinging => simpa only [move, phase] using .pinged phase
    | _ => simpa only [move, phase] using .blocked (by simp [Allows, phase])
  | lost =>
    cases phase : s.phase with
    | sending a => simpa only [move, phase] using .lost (.inl ⟨a, phase⟩)
    | pinging => simpa only [move, phase] using .lost (.inr phase)
    | _ => simpa only [move, phase] using .blocked (by simp [Allows, phase])

end Moves

section Following

/-- The channel after a run: the last publication, their number, and whether more may come. -/
structure Publishes (a : α) (ms : List (StreamMove α)) (c : Channel α) : Prop where
  isOpen : c.isOpen = true ↔ .dropPublisher ∉ ms
  length : (publications a ms).length = c.version + 1
  latest : (publications a ms).getLast? = some c.latest

/-- How far the client has been sent what was published, by what the subscriber is at. -/
def Progress (published : List α) (first : Nat) (lost : Prop) (s : Stream α) : Prop :=
  match s.phase with
  | .connecting => s.received = [] ∧ s.channel.version = first
  | .told => s.received ≠ [] ∧ Sent published first s.seen s.received.reverse
  | .sending b =>
    published[s.seen]? = some b ∧ (s.received = [] → s.seen = first) ∧
      Sent published first s.seen s.received.reverse
  | .waiting | .pinging =>
    s.received.head? = published[s.seen]? ∧ s.received ≠ [] ∧
      Sent published first (s.seen + 1) s.received.reverse
  | .ended =>
    Sent published first published.length s.received.reverse ∧
      (lost ∨ s.channel.isOpen = false ∧ s.received.head? = some s.channel.latest)

structure Follows (a : α) (ms : List (StreamMove α)) (s : Stream α) : Prop where
  channel : Publishes a ms s.channel
  seen : s.seen ≤ s.channel.version
  unread : s.phase = .connecting ↔ .read ∉ ms
  progress : s.Progress (publications a ms) (firstPlace a ms) (.lost ∈ ms)

variable {a : α} {ms : List (StreamMove α)} {s : Stream α} {m : StreamMove α}

theorem publications_of_silent (silent : m.published? = none) :
    publications a (ms ++ [m]) = publications a ms := by
  by_cases ended : .dropPublisher ∈ ms
  · exact publications_concat_of_ended ended
  · rw [publications_concat ended, silent, Option.toList_none, List.append_nil]

theorem Publishes.publish {c : Channel α} (channel : Publishes a ms c) (b : α) :
    Publishes a (ms ++ [.publish b]) (c.publish b) := by
  obtain ⟨isOpen, length, latest⟩ := channel
  have ending : .dropPublisher ∈ ms ++ [StreamMove.publish b] ↔ .dropPublisher ∈ ms := by simp
  by_cases publishing : c.isOpen = true
  · rw [Channel.publish, if_pos publishing]
    refine ⟨by rw [ending]; exact isOpen, ?_, ?_⟩
    · rw [publications_concat (isOpen.mp publishing), List.length_append, length]
      rfl
    · rw [publications_concat (isOpen.mp publishing)]
      exact List.getLast?_concat
  · have ended : .dropPublisher ∈ ms := by
      by_contra going
      exact publishing (isOpen.mpr going)
    rw [Channel.publish, if_neg publishing]
    refine ⟨by rw [ending]; exact isOpen, ?_, ?_⟩
    · rw [publications_concat_of_ended ended, length]
    · rw [publications_concat_of_ended ended, latest]

theorem Publishes.close {c : Channel α} (channel : Publishes a ms c) :
    Publishes a (ms ++ [.dropPublisher]) c.close := by
  obtain ⟨_, length, latest⟩ := channel
  refine ⟨by simp [Channel.close], ?_, ?_⟩
  · rw [publications_of_silent rfl]
    exact length
  · rw [publications_of_silent rfl]
    exact latest

theorem Publishes.silent {c : Channel α} (channel : Publishes a ms c)
    (silent : m.published? = none) (going : m ≠ .dropPublisher) : Publishes a (ms ++ [m]) c := by
  obtain ⟨isOpen, length, latest⟩ := channel
  refine ⟨?_, ?_, ?_⟩
  · rw [isOpen, List.mem_append, List.mem_singleton]
    constructor
    · intro publishing ended
      rcases ended with earlier | now
      · exact publishing earlier
      · exact going now.symm
    · intro publishing earlier
      exact publishing (.inl earlier)
  · rw [publications_of_silent silent, length]
  · rw [publications_of_silent silent, latest]

theorem firstPlace_of_same (same : publications a (ms ++ [m]) = publications a ms) :
    firstPlace a (ms ++ [m]) = firstPlace a ms := by
  by_cases reading : .read ∈ ms
  · exact firstPlace_concat a reading
  · by_cases now : m = .read
    · rw [now]
      exact firstPlace_concat_read a reading
    · have unread : .read ∉ ms ++ [m] := by
        rw [List.mem_append, List.mem_singleton]
        rintro (earlier | last)
        · exact reading earlier
        · exact now last.symm
      rw [firstPlace_of_unread a unread, firstPlace_of_unread a reading, same]

theorem Progress.imp {published : List α} {first : Nat} {lost lost' : Prop}
    (progress : s.Progress published first lost) (more : lost → lost') :
    s.Progress published first lost' := by
  unfold Progress at progress ⊢
  cases phase : s.phase with
  | ended =>
    rw [phase] at progress
    exact ⟨progress.1, progress.2.imp_left more⟩
  | _ => rw [phase] at progress; exact progress

/-- A publication leaves what was sent and what is under way where it is. -/
theorem Progress.publish {published : List α} {first : Nat} {lost : Prop}
    (progress : s.Progress published first lost) (reading : s.phase ≠ .connecting)
    (length : published.length = s.channel.version + 1) (seen : s.seen ≤ s.channel.version)
    (publishing : s.channel.isOpen = true) (b : α) :
    ({ s with channel := s.channel.publish b } : Stream α).Progress (published ++ [b]) first
      lost := by
  have kept : (published ++ [b])[s.seen]? = published[s.seen]? :=
    List.getElem?_append_left (by omega)
  unfold Progress at progress ⊢
  dsimp only
  cases phase : s.phase with
  | connecting => exact absurd phase reading
  | told =>
    rw [phase] at progress
    obtain ⟨some_sent, sent⟩ := progress
    exact ⟨some_sent, sent.publish [b] (by omega)⟩
  | sending v =>
    rw [phase] at progress
    obtain ⟨read, opening, sent⟩ := progress
    exact ⟨kept.trans read, opening, sent.publish [b] (by omega)⟩
  | waiting =>
    rw [phase] at progress
    obtain ⟨last, some_sent, sent⟩ := progress
    exact ⟨last.trans kept.symm, some_sent, sent.publish [b] (by omega)⟩
  | pinging =>
    rw [phase] at progress
    obtain ⟨last, some_sent, sent⟩ := progress
    exact ⟨last.trans kept.symm, some_sent, sent.publish [b] (by omega)⟩
  | ended =>
    rw [phase] at progress
    obtain ⟨sent, lost | ⟨closed, _⟩⟩ := progress
    · refine ⟨(sent.publish [b] (Nat.le_refl _)).mono ?_, .inl lost⟩
      rw [List.length_append]
      exact Nat.le_add_right _ _
    · rw [publishing] at closed
      cases closed

theorem Follows.publish (follows : Follows a ms s) (b : α) :
    Follows a (ms ++ [.publish b]) { s with channel := s.channel.publish b } := by
  obtain ⟨channel, seen, unread, progress⟩ := follows
  have version : s.channel.version ≤ (s.channel.publish b).version := by
    unfold Channel.publish
    split
    · exact Nat.le_succ _
    · exact Nat.le_refl _
  have lost : StreamMove.lost ∈ ms → StreamMove.lost ∈ ms ++ [.publish b] :=
    List.mem_append_left _
  have unread' : s.phase = .connecting ↔ .read ∉ ms ++ [StreamMove.publish b] := by
    rw [unread]
    simp
  refine ⟨channel.publish b, Nat.le_trans seen version, unread', ?_⟩
  by_cases publishing : s.channel.isOpen = true
  · rw [publications_concat (channel.isOpen.mp publishing)]
    by_cases connecting : s.phase = .connecting
    · have place : firstPlace a (ms ++ [.publish b]) = s.channel.version + 1 := by
        rw [firstPlace_of_unread a (unread'.mp connecting),
          publications_concat (channel.isOpen.mp publishing), List.length_append, channel.length]
        rfl
      rw [place]
      unfold Progress at progress ⊢
      dsimp only
      rw [connecting] at progress ⊢
      refine ⟨progress.1, ?_⟩
      rw [Channel.publish, if_pos publishing]
    · have reading : .read ∈ ms := by
        by_contra none_read
        exact connecting (unread.mpr none_read)
      rw [firstPlace_concat a reading]
      exact (progress.publish connecting channel.length seen publishing b).imp lost
  · have ended : .dropPublisher ∈ ms := by
      by_contra going
      exact publishing (channel.isOpen.mpr going)
    have same : s.channel.publish b = s.channel := if_neg publishing
    rw [firstPlace_of_same (publications_concat_of_ended ended),
      publications_concat_of_ended ended, same]
    exact progress.imp lost

theorem Follows.close (follows : Follows a ms s) :
    Follows a (ms ++ [.dropPublisher]) { s with channel := s.channel.close } := by
  obtain ⟨channel, seen, unread, progress⟩ := follows
  refine ⟨channel.close, seen, by rw [unread]; simp, ?_⟩
  rw [firstPlace_of_same (publications_of_silent rfl), publications_of_silent rfl]
  have progress := progress.imp (List.mem_append_left [.dropPublisher])
  unfold Progress at progress ⊢
  dsimp only
  cases phase : s.phase with
  | ended =>
    rw [phase] at progress
    exact ⟨progress.1, progress.2.imp_right (fun finished => ⟨rfl, finished.2⟩)⟩
  | _ => rw [phase] at progress; exact progress

/-- A move that leaves the channel alone. -/
theorem Follows.quiet (follows : Follows a ms s) {s' : Stream α} (silent : m.published? = none)
    (going : m ≠ .dropPublisher) (channel : s'.channel = s.channel)
    (seen : s'.seen ≤ s.channel.version)
    (unread : s'.phase = .connecting ↔ s.phase = .connecting ∧ m ≠ .read)
    (progress : s'.Progress (publications a ms) (firstPlace a ms) (.lost ∈ ms ++ [m])) :
    Follows a (ms ++ [m]) s' := by
  refine ⟨by rw [channel]; exact follows.channel.silent silent going,
    by rw [channel]; exact seen, ?_, ?_⟩
  · rw [unread, follows.unread, List.mem_append, List.mem_singleton, not_or, ne_comm]
  · rw [firstPlace_of_same (publications_of_silent silent), publications_of_silent silent]
    exact progress

theorem Publishes.latest_place {c : Channel α} (channel : Publishes a ms c) :
    (publications a ms)[c.version]? = some c.latest := by
  rw [← channel.latest, List.getLast?_eq_getElem?, channel.length, Nat.add_sub_cancel]

theorem follows_move (follows : Follows a ms s) (m : StreamMove α) :
    Follows a (ms ++ [m]) (s.move m) := by
  have channel := follows.channel
  have seen := follows.seen
  have progress := follows.progress.imp (List.mem_append_left [m])
  have step := moved s m
  generalize s.move m = s' at step ⊢
  cases step with
  | publish b => exact follows.publish b
  | close => exact follows.close
  | leave => exact follows.quiet rfl nofun rfl seen (by simp) progress
  | blocked blocked =>
    have silent : m.published? = none := by
      cases m <;> first | rfl | exact absurd trivial blocked
    have going : m ≠ .dropPublisher := by
      rintro rfl
      exact blocked trivial
    refine follows.quiet silent going rfl seen ?_ progress
    constructor
    · intro connecting
      refine ⟨connecting, ?_⟩
      rintro rfl
      exact blocked (.inl connecting)
    · exact And.left
  | told waiting pending =>
    refine follows.quiet rfl nofun rfl (Nat.le_refl _) (by simp [waiting]) ?_
    unfold Progress at progress ⊢
    rw [waiting] at progress
    obtain ⟨_, some_sent, sent⟩ := progress
    exact ⟨some_sent, sent.mono (by dsimp only; omega)⟩
  | unchanged waiting => exact follows.quiet rfl nofun rfl seen (by simp [waiting]) progress
  | finished waiting nothing closed =>
    refine follows.quiet rfl nofun rfl seen (by simp [waiting]) ?_
    unfold Progress at progress ⊢
    rw [waiting] at progress
    obtain ⟨last, _, sent⟩ := progress
    refine ⟨sent.mono ?_, .inr ⟨closed, ?_⟩⟩
    · rw [channel.length, nothing]
    · rw [last, nothing, channel.latest_place]
  | read ready =>
    refine follows.quiet rfl nofun rfl (Nat.le_refl _) (by simp) ?_
    unfold Progress at progress ⊢
    rcases ready with connecting | told
    · rw [connecting] at progress
      obtain ⟨none_sent, opening⟩ := progress
      refine ⟨channel.latest_place, fun _ => opening, ?_⟩
      dsimp only
      rw [none_sent]
      exact sent_nil _ _ _
    · rw [told] at progress
      obtain ⟨some_sent, sent⟩ := progress
      exact ⟨channel.latest_place, fun none_sent => absurd none_sent some_sent, sent.mono seen⟩
  | sent sending =>
    refine follows.quiet rfl nofun rfl seen (by simp [sending]) ?_
    unfold Progress at progress ⊢
    rw [sending] at progress
    obtain ⟨read, opening, sent⟩ := progress
    refine ⟨read.symm, List.cons_ne_nil _ _, ?_⟩
    dsimp only
    rw [List.reverse_cons]
    exact sent.send read (fun none_sent => opening (List.reverse_eq_nil_iff.mp none_sent))
  | ping waiting =>
    refine follows.quiet rfl nofun rfl seen (by simp [waiting]) ?_
    unfold Progress at progress ⊢
    rw [waiting] at progress
    exact progress
  | pinged pinging =>
    refine follows.quiet rfl nofun rfl seen (by simp [pinging]) ?_
    unfold Progress at progress ⊢
    rw [pinging] at progress
    exact progress
  | lost under_way =>
    have now : StreamMove.lost ∈ ms ++ [.lost] := List.mem_append_right ms (List.mem_singleton_self _)
    have length := channel.length
    unfold Progress at progress
    rcases under_way with ⟨b, sending⟩ | pinging
    · refine follows.quiet rfl nofun rfl seen (by simp [sending]) ?_
      rw [sending] at progress
      exact ⟨progress.2.2.mono (by omega), .inl now⟩
    · refine follows.quiet rfl nofun rfl seen (by simp [pinging]) ?_
      rw [pinging] at progress
      exact ⟨progress.2.2.mono (by omega), .inl now⟩

theorem follows_start (a : α) : Follows a [] (start a) :=
  ⟨⟨by simp [start], rfl, rfl⟩, Nat.le_refl 0, by simp [start], rfl, rfl⟩

/-- After every run the client has been sent as much of what was published as its phase tells. -/
theorem follows_moves (a : α) (ms : List (StreamMove α)) : Follows a ms ((start a).moves ms) := by
  induction ms using List.reverseRecOn with
  | nil => exact follows_start a
  | append_singleton ms m ih =>
    rw [moves, List.foldl_append]
    exact follows_move ih m

theorem Follows.sent (follows : Follows a ms s) :
    Sent (publications a ms) (firstPlace a ms) (publications a ms).length s.received.reverse := by
  have length := follows.channel.length
  have seen := follows.seen
  have progress := follows.progress
  unfold Progress at progress
  cases phase : s.phase with
  | connecting =>
    rw [phase] at progress
    rw [progress.1]
    exact sent_nil _ _ _
  | told => rw [phase] at progress; exact progress.2.mono (by omega)
  | sending b => rw [phase] at progress; exact progress.2.2.mono (by omega)
  | waiting => rw [phase] at progress; exact progress.2.2.mono (by omega)
  | pinging => rw [phase] at progress; exact progress.2.2.mono (by omega)
  | ended => rw [phase] at progress; exact progress.1

theorem Follows.latest_of_waiting (follows : Follows a ms s) (waiting : s.phase = .waiting)
    (nothing : s.seen = s.channel.version) :
    s.received.head? = (publications a ms).getLast? := by
  have progress := follows.progress
  unfold Progress at progress
  rw [waiting] at progress
  rw [progress.1, nothing, follows.channel.latest_place, follows.channel.latest]

theorem Follows.latest_of_ended (follows : Follows a ms s) (ended : s.phase = .ended)
    (arrives : .lost ∉ ms) :
    .dropPublisher ∈ ms ∧ s.received.head? = (publications a ms).getLast? := by
  have progress := follows.progress
  unfold Progress at progress
  rw [ended] at progress
  rcases progress.2 with lost | ⟨closed, last⟩
  · exact absurd lost arrives
  · refine ⟨?_, last.trans follows.channel.latest.symm⟩
    by_contra going
    rw [follows.channel.isOpen.mpr going] at closed
    cases closed

end Following

section Found

variable {a : α} {ms : List (StreamMove α)}

theorem publications_prefix (early later : List (StreamMove α)) :
    publications a early <+: publications a (early ++ later) := by
  rw [publications, publications, List.takeWhile_append]
  split
  · rename_i whole
    rw [(List.takeWhile_sublist _).eq_of_length whole, List.filterMap_append, ← List.cons_append]
    exact List.prefix_append _ _
  · exact List.prefix_rfl

/-- The first reading finds the last of the values published before it. -/
theorem getElem?_firstPlace (a : α) (ms : List (StreamMove α)) :
    (publications a ms)[firstPlace a ms]? = (publications a (beforeReading ms)).getLast? := by
  obtain ⟨rest, cut⟩ := List.takeWhile_prefix (fun m => !m.reads) (l := ms)
  have cut : beforeReading ms ++ rest = ms := cut
  obtain ⟨later, joined⟩ := publications_prefix (a := a) (beforeReading ms) rest
  rw [cut] at joined
  have within : firstPlace a ms < (publications a (beforeReading ms)).length :=
    Nat.sub_lt (Nat.succ_pos _) Nat.one_pos
  rw [← joined, List.getElem?_append_left within, List.getLast?_eq_getElem?]
  rfl

end Found


section Pings

/-- The subscriber's moves are those it can make. -/
def Legal : Stream α → List (StreamMove α) → Prop
  | _, [] => True
  | s, m :: rest => s.Allows m ∧ Legal (s.move m) rest

/-- The stream as if it had no pings: while one is under way the subscriber waits. -/
def pingless (s : Stream α) : Stream α :=
  { s with phase := match s.phase with | .pinging => .waiting | phase => phase, pings := 0 }

variable {s : Stream α} {m : StreamMove α} {ms : List (StreamMove α)}

theorem pingless_ping (ofPing : m.isPing = true) (allowed : s.Allows m) :
    (s.move m).pingless = s.pingless := by
  cases m with
  | ping =>
    have waiting : s.phase = .waiting := allowed
    simp [move, pingless, waiting]
  | pinged =>
    have pinging : s.phase = .pinging := allowed
    simp [move, pingless, pinging]
  | _ => cases ofPing

theorem pingless_move (others : m.isPing = false) (arrives : m ≠ .lost) (allowed : s.Allows m) :
    (s.move m).pingless = s.pingless.move m := by
  cases m with
  | publish b => rfl
  | dropPublisher => rfl
  | dropClient => rfl
  | notice =>
    have waiting : s.phase = .waiting := allowed
    simp only [move, pingless, waiting]
    repeat' split
    all_goals simp_all
  | read =>
    rcases allowed with connecting | told
    · simp [move, pingless, connecting]
    · simp [move, pingless, told]
  | sent =>
    obtain ⟨b, sending⟩ := allowed
    simp [move, pingless, sending]
  | ping => cases others
  | pinged => cases others
  | lost => exact absurd rfl arrives

/-- Without its pings a run is the same run. -/
theorem pingless_moves (legal : Legal s ms) (arrives : .lost ∉ ms) :
    (s.moves ms).pingless = s.pingless.moves (ms.filter (fun m => !m.isPing)) := by
  induction ms generalizing s with
  | nil => rfl
  | cons m rest ih =>
    obtain ⟨allowed, legal⟩ := legal
    rw [List.mem_cons, not_or] at arrives
    obtain ⟨now, later⟩ := arrives
    have rest_same := ih legal later
    cases ofPing : m.isPing with
    | true =>
      rw [List.filter_cons_of_neg (by simp [ofPing]), ← pingless_ping ofPing allowed]
      exact rest_same
    | false =>
      rw [List.filter_cons_of_pos (by simp [ofPing]), moves, moves, List.foldl_cons, List.foldl_cons,
        ← pingless_move ofPing (Ne.symm now) allowed]
      exact rest_same

end Pings

/-- Events are runs of moves that nothing interrupts. -/
theorem exists_moves_of_run (s : Stream α) (events : List (StreamEvent α)) :
    ∃ ms, s.run events = s.moves ms := by
  induction events generalizing s with
  | nil => exact ⟨[], rfl⟩
  | cons e rest ih =>
    obtain ⟨ms, later⟩ := ih (s.step e)
    refine ⟨s.movesOf e ++ ms, ?_⟩
    rw [moves, List.foldl_append]
    exact later

/-- After every run: what was received of what was published, where it begins, that nothing is
missing at its end while the subscriber waits with nothing pending or once it ended with the
publisher, and that pings make no difference. -/
theorem stream_delivers (a : α) (ms : List (StreamMove α)) :
    let s := (start a).moves ms
    s.received.reverse.Sublist ((publications a ms).drop (firstPlace a ms)) ∧
    (s.received ≠ [] →
      s.received.reverse.head? = (publications a (beforeReading ms)).getLast?) ∧
    (s.phase = .waiting → s.seen = s.channel.version →
      s.received.head? = (publications a ms).getLast?) ∧
    (s.phase = .ended → .lost ∉ ms →
      .dropPublisher ∈ ms ∧ s.received.head? = (publications a ms).getLast?) ∧
    (Legal (start a) ms → .lost ∉ ms →
      ((start a).moves (ms.filter (fun m => !m.isPing))).received = s.received) ∧
    (∀ events, ∃ ms, (start a).run events = (start a).moves ms) := by
  intro s
  have follows : Follows a ms s := follows_moves a ms
  obtain ⟨inside, leading⟩ := follows.sent
  rw [List.take_length] at inside
  refine ⟨inside, ?_, follows.latest_of_waiting, follows.latest_of_ended, ?_,
    exists_moves_of_run (start a)⟩
  · intro some_sent
    rw [leading (fun none_sent => some_sent (List.reverse_eq_nil_iff.mp none_sent)),
      getElem?_firstPlace]
  · intro legal arrives
    exact (congrArg Stream.received (pingless_moves legal arrives)).symm

/- Of the values published while another is on its way or a ping is, only the last is sent; the
last of all is sent although publishing has ended by then. -/
example :
    let s := (start 0).moves [.publish 1, .read, .publish 2, .publish 3, .sent, .ping, .publish 4,
      .pinged, .notice, .publish 5, .read, .publish 6, .dropPublisher, .sent, .notice, .read, .sent,
      .notice]
    s.received.reverse = [1, 5, 6] ∧ s.phase = .ended := by decide

end Stream
end FleetHealth
