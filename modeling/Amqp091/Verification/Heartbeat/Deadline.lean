import Amqp091.Verification.Heartbeat.Machine

/-! # The read deadline

The reader passes its connection on after every frame and does not wait for the heartbeater.
A connection that is still in the buffer stands for the later frames as well, so no frame is
forgotten: the deadline always comes from the last frame or from one that is outstanding. -/

namespace Amqp091

open Timers Transition

namespace Heartbeater

variable {ε gap interval : ℕ} {s s' : Heartbeater} {a : HeartbeatAction}

/-- A frame whose deadline is not set yet. -/
def Pending (s : Heartbeater) (read : ℕ) : Prop :=
  s.reader = .demuxing read ∨ s.deadlines = some read ∨ s.phase = .resetting read

theorem mem_outstanding_of_pending {read : ℕ} (h : s.Pending read) : read ∈ s.outstanding := by
  rcases h with h | h | h <;>
    simp [outstanding, h, HeartbeatPhase.since, FrameReader.since]

/-- The server is not silent for more than `gap`, and the deadline of an open connection
can be set. -/
def Alive (gap : ℕ) (s : Heartbeater) : HeartbeatAction → Prop
  | .pass d => s.now + d ≤ s.lastRead + gap
  | .setReadDeadline r => r = .ok ∨ s.closed = true
  | _ => True

def Attended (ε gap : ℕ) (s : Heartbeater) (a : HeartbeatAction) : Prop :=
  s.InTime ε a ∧ s.Alive gap a

instance (gap : ℕ) (s : Heartbeater) : (a : HeartbeatAction) → Decidable (s.Alive gap a)
  | .pass d => inferInstanceAs (Decidable (s.now + d ≤ s.lastRead + gap))
  | .setReadDeadline r => inferInstanceAs (Decidable (r = .ok ∨ s.closed = true))
  | .fire | .takeTick | .checkTick _ | .write | .notify .. | .readFrame | .demuxed
  | .takeDeadline | .openComplete | .timeout | .shutdown | .done =>
      inferInstanceAs (Decidable True)

instance (ε gap : ℕ) (s : Heartbeater) (a : HeartbeatAction) :
    Decidable (s.Attended ε gap a) := inferInstanceAs (Decidable (_ ∧ _))

/-- `due` is the time that the deadline leaves the server after its last frame. -/
structure Watched (ε gap due : ℕ) (s : Heartbeater) : Prop where
  demuxing : ∀ read, s.reader = .demuxing read → read = s.lastRead
  pending : ∀ read, s.Pending read → read ≤ s.lastRead ∧ s.now ≤ read + ε
  heard : s.lastRead ≤ s.now ∧ s.now ≤ s.lastRead + gap
  atMost : ∀ deadline, s.readDeadline = some deadline → deadline ≤ s.lastRead + due + ε
  atLeast : ∀ deadline, s.readDeadline = some deadline → s.lastRead + due ≤ deadline ∨
    ∃ read, s.Pending read ∧ read + due ≤ deadline + gap

theorem watched_start (interval now due : ℕ) : Watched ε gap due (start interval now) where
  demuxing := by simp [start]
  pending := by simp [start, Pending]
  heard := ⟨Nat.le_refl _, Nat.le_add_right _ _⟩
  atMost := by simp [start]
  atLeast := by simp [start]

/-- The writers' side has no part in the deadline. -/
theorem Watched.written {due : ℕ} (h : Watched ε gap due s) (ticker : Ticker)
    (lastSent lastWritten : ℕ) (writers : List ℕ) (closed failed : Bool) :
    Watched ε gap due { s with ticker, lastSent, lastWritten, writers, closed, failed } :=
  ⟨h.demuxing, h.pending, h.heard, h.atMost, h.atLeast⟩

/-- The goroutine turns to something else than a deadline. -/
theorem Watched.move {due : ℕ} {p : HeartbeatPhase} (h : Watched ε gap due s)
    (hphase : ∀ read, s.phase ≠ .resetting read) (hp : ∀ read, p ≠ .resetting read) :
    Watched ε gap due { s with phase := p } := by
  have hpending : ∀ read, Pending { s with phase := p } read ↔ s.Pending read := by
    intro read
    simp [Pending, hphase read, hp read]
  refine ⟨h.demuxing, fun read hread => h.pending read ((hpending read).mp hread), h.heard,
    h.atMost, ?_⟩
  intro deadline hdeadline
  rcases h.atLeast deadline hdeadline with hlater | ⟨read, hread, hlater⟩
  · exact .inl hlater
  · exact .inr ⟨read, (hpending read).mpr hread, hlater⟩

theorem Watched.pass {due d : ℕ} (h : Watched ε gap due s) (hphase : s.phase ≠ .returned)
    (hattended : s.Attended ε gap (.pass d)) : Watched ε gap due { s with now := s.now + d } := by
  obtain ⟨hintime, hsilence⟩ := hattended
  refine ⟨h.demuxing, fun read hread => ?_, ⟨?_, hsilence⟩, h.atMost, h.atLeast⟩
  · exact ⟨(h.pending read hread).1, (hintime hphase).2 read (mem_outstanding_of_pending hread)⟩
  · exact Nat.le_trans h.heard.1 (Nat.le_add_right _ _)

/-- The frame that was read keeps the old deadline in force until it has its own. -/
theorem Watched.readFrame {due : ℕ} (h : Watched ε gap due s) (hreader : s.reader = .reading) :
    Watched ε gap due { s with reader := .demuxing s.now, lastRead := s.now } := by
  obtain ⟨hle, hgap⟩ := h.heard
  have hkept : ∀ read, s.Pending read →
      Pending { s with reader := .demuxing s.now, lastRead := s.now } read := by
    rintro read (hread | hread)
    · rw [hreader] at hread
      cases hread
    · exact .inr hread
  refine ⟨?_, ?_, ⟨Nat.le_refl _, Nat.le_add_right _ _⟩, ?_, ?_⟩
  · rintro read hread
    cases hread
    rfl
  · rintro read (hread | hread)
    · cases hread
      exact ⟨Nat.le_refl _, Nat.le_add_right _ _⟩
    · obtain ⟨hbefore, hsoon⟩ := h.pending read (.inr hread)
      exact ⟨Nat.le_trans hbefore hle, hsoon⟩
  · intro deadline hdeadline
    have hatMost := h.atMost deadline hdeadline
    dsimp only
    omega
  · intro deadline hdeadline
    rcases h.atLeast deadline hdeadline with hlater | ⟨read, hread, hlater⟩
    · exact .inr ⟨s.now, .inl rfl, by omega⟩
    · exact .inr ⟨read, hkept read hread, hlater⟩

/-- A connection that finds the buffer full is dropped. The one in the buffer is older. -/
theorem Watched.demuxed {due read : ℕ} (h : Watched ε gap due s)
    (hreader : s.reader = .demuxing read) :
    Watched ε gap due { s with reader := .reading, deadlines := s.deadlines.or (some read) } := by
  have hlast := h.demuxing read hreader
  refine ⟨by simp, ?_, h.heard, h.atMost, ?_⟩
  · rintro other (hother | hother | hother)
    · cases hother
    · cases hbuffer : s.deadlines with
      | none =>
          rw [hbuffer, Option.none_or, Option.some.injEq] at hother
          subst hother
          exact h.pending read (.inl hreader)
      | some first =>
          rw [hbuffer, Option.some_or, Option.some.injEq] at hother
          subst hother
          exact h.pending first (.inr (.inl hbuffer))
    · exact h.pending other (.inr (.inr hother))
  · intro deadline hdeadline
    rcases h.atLeast deadline hdeadline with hlater | ⟨other, hother, hlater⟩
    · exact .inl hlater
    · right
      rcases hother with hother | hother | hother
      · cases hbuffer : s.deadlines with
        | none =>
            rw [hreader] at hother
            cases hother
            exact ⟨read, .inr (.inl rfl), hlater⟩
        | some first =>
            have hbefore := (h.pending first (.inr (.inl hbuffer))).1
            rw [h.demuxing other hother] at hlater
            exact ⟨first, .inr (.inl rfl), by omega⟩
      · exact ⟨other, .inr (.inl (by simp [hother])), hlater⟩
      · exact ⟨other, .inr (.inr hother), hlater⟩

theorem Watched.takeDeadline {due read : ℕ} (h : Watched ε gap due s)
    (hphase : s.phase = .waiting) (hread : s.deadlines = some read) :
    Watched ε gap due { s with phase := .resetting read, deadlines := none } := by
  have hpending : ∀ other,
      Pending { s with phase := .resetting read, deadlines := none } other ↔ s.Pending other := by
    intro other
    simp [Pending, hphase, hread]
  refine ⟨h.demuxing, fun other hother => h.pending other ((hpending other).mp hother), h.heard,
    h.atMost, ?_⟩
  intro deadline hdeadline
  rcases h.atLeast deadline hdeadline with hlater | ⟨other, hother, hlater⟩
  · exact .inl hlater
  · exact .inr ⟨other, (hpending other).mpr hother, hlater⟩

/-- The new deadline counts from now, and so from every frame that was read. -/
theorem Watched.reset {read : ℕ}
    (h : Watched ε gap (maxServerHeartbeatsInFlight * s.interval) s)
    (hinterval : 0 < s.interval) (hphase : s.phase = .resetting read) :
    Watched ε gap (maxServerHeartbeatsInFlight * s.interval) (s.setReadDeadline .ok) := by
  obtain ⟨hbefore, hsoon⟩ := h.pending read (.inr (.inr hphase))
  rw [setReadDeadline, if_pos hinterval]
  refine ⟨h.demuxing, ?_, h.heard, ?_, ?_⟩
  · rintro other (hother | hother | hother)
    · exact h.pending other (.inl hother)
    · exact h.pending other (.inr (.inl hother))
    · cases hother
  · rintro deadline hdeadline
    cases hdeadline
    dsimp only
    omega
  · rintro deadline hdeadline
    cases hdeadline
    exact .inl (Nat.add_le_add_right h.heard.1 _)

/-- What holds while the connection is open and the heartbeater runs. -/
structure Watch (ε gap interval : ℕ) (s : Heartbeater) : Prop where
  interval : s.interval = interval
  watched : s.closed = false → s.phase ≠ .returned →
    Watched ε gap (maxServerHeartbeatsInFlight * s.interval) s

theorem Watch.next (hinterval : 0 < interval) (h : Watch ε gap interval s)
    (hattended : s.Attended ε gap a) (hnext : s.next a = some s') : Watch ε gap interval s' := by
  have heq := h.interval
  cases step_of_next hnext with
  | pass d => exact ⟨heq, fun hopen hphase => (h.watched hopen hphase).pass hphase hattended⟩
  | fire => exact ⟨heq, fun hopen hphase => (h.watched hopen hphase).written _ _ _ _ _ _⟩
  | @takeTick tick hphase =>
      refine ⟨heq, fun hopen _ => ?_⟩
      have hmove := (h.watched hopen (by simp [hphase])).move (p := .ticked tick)
        (by simp [hphase]) (by simp)
      exact hmove.written _ _ _ _ _ _
  | @checkTick tick fails hphase =>
      obtain ⟨p, lastWritten, failed, hp, hcheck⟩ := checkTick_eq s tick fails
      rw [hcheck]
      refine ⟨heq, fun hopen _ => ?_⟩
      have hmove := (h.watched hopen (by simp [hphase])).move (by simp [hphase]) hp
      exact hmove.written _ _ _ _ _ _
  | write => exact ⟨heq, fun hopen hphase => (h.watched hopen hphase).written _ _ _ _ _ _⟩
  | heard => exact ⟨heq, fun hopen hphase => (h.watched hopen hphase).written _ _ _ _ _ _⟩
  | unheard => exact ⟨heq, fun hopen hphase => (h.watched hopen hphase).written _ _ _ _ _ _⟩
  | readFrame hreader =>
      exact ⟨heq, fun hopen hphase => (h.watched hopen hphase).readFrame hreader⟩
  | demuxed hreader => exact ⟨heq, fun hopen hphase => (h.watched hopen hphase).demuxed hreader⟩
  | takeDeadline hphase hread =>
      exact ⟨heq, fun hopen _ => (h.watched hopen (by simp [hphase])).takeDeadline hphase hread⟩
  | @setReadDeadline read r hphase =>
      obtain ⟨hsame, hclosed⟩ := setReadDeadline_frame s r
      refine ⟨hsame.trans heq, fun hopen _ => ?_⟩
      rw [hsame]
      rw [hclosed] at hopen
      rcases hattended.2 with rfl | hattended
      · exact (h.watched hopen (by simp [hphase])).reset (heq ▸ hinterval) hphase
      · rw [hopen] at hattended
        cases hattended
  | openComplete =>
      refine ⟨heq, fun hopen hphase => ?_⟩
      have hwatched := h.watched hopen hphase
      exact ⟨hwatched.demuxing, hwatched.pending, hwatched.heard, by simp, by simp⟩
  | timeout => exact ⟨heq, by simp⟩
  | shutdown => exact ⟨heq, by simp⟩
  | done => exact ⟨heq, by simp⟩

/-- A server that is never silent for long is not taken for dead, although the reader does
not wait for the deadline to be set; and the deadline is never far behind the last frame, so
that a dead server is noticed. -/
theorem deadline_follows_frames {now : ℕ} {as : List HeartbeatAction}
    (hgap : gap + ε < maxServerHeartbeatsInFlight * interval)
    (hrun : Run next (Attended ε gap) (start interval now) as s) (hopen : s.closed = false)
    (hphase : s.phase ≠ .returned) :
    ∀ deadline, s.readDeadline = some deadline →
      s.now < deadline ∧
        deadline ≤ s.lastRead + maxServerHeartbeatsInFlight * interval + ε := by
  have hinterval : 0 < interval := by
    rcases Nat.eq_zero_or_pos interval with rfl | hpos
    · omega
    · exact hpos
  have hwatch : Watch ε gap interval s :=
    hrun.invariant ⟨rfl, fun _ _ => watched_start _ _ _⟩
      fun _ _ _ h hattended hnext => h.next hinterval hattended hnext
  have hwatched := hwatch.watched hopen hphase
  rw [hwatch.interval] at hwatched
  intro deadline hdeadline
  refine ⟨?_, hwatched.atMost deadline hdeadline⟩
  rcases hwatched.atLeast deadline hdeadline with hlater | ⟨read, hread, hlater⟩
  · have hheard := hwatched.heard.2
    omega
  · have hsoon := (hwatched.pending read hread).2
    omega

/-- Two frames that come while the heartbeater is busy share one deadline. -/
theorem deadline_follows_frames_shared :
    ∃ s, Run next (Attended 10000000 10000000000) (start 5000000000 0)
        [.pass 1000000000, .readFrame, .demuxed, .takeDeadline, .readFrame, .demuxed,
          .pass 5000000, .readFrame, .demuxed, .setReadDeadline .ok, .takeDeadline,
          .setReadDeadline .ok, .pass 3000000000] s ∧
      s.lastRead = 1005000000 ∧ s.readDeadline = some 16005000000 ∧ s.now < 16005000000 := by
  have hrun : Run next (Attended 10000000 10000000000) (start 5000000000 0)
      [.pass 1000000000, .readFrame, .demuxed, .takeDeadline, .readFrame, .demuxed,
        .pass 5000000, .readFrame, .demuxed, .setReadDeadline .ok, .takeDeadline,
        .setReadDeadline .ok, .pass 3000000000]
      { start 5000000000 0 with
        now := 4005000000
        readDeadline := some 16005000000
        lastRead := 1005000000 } := .of_exec (by decide +kernel)
  exact ⟨_, hrun, rfl, rfl,
    (deadline_follows_frames (by decide) hrun rfl (by decide) _ rfl).1⟩

end Heartbeater

end Amqp091
