import Amqp091.Verification.Heartbeat.Machine

/-! # A frame in every heartbeat interval

The heartbeater leaves a tick out when it heard of a write shortly before. Together with the
tick after that one, the time between two frames stays below two of its intervals. -/

namespace Amqp091

open Timers Transition

namespace Heartbeater

variable {ε interval : ℕ} {s s' : Heartbeater} {a : HeartbeatAction}

/-- A tick that was not looked at yet. -/
def InFlight (s : Heartbeater) (tick : ℕ) : Prop :=
  s.ticker.buffer = some tick ∨ s.phase = .ticked tick

/-- At `t` an interval has passed since the last frame, or two of them less the tolerance
when a tick was left out. The heartbeater may have heard of that frame late by `ε`. -/
def Soon (ε : ℕ) (s : Heartbeater) (t slack : ℕ) : Prop :=
  t ≤ s.lastWritten + s.interval + slack ∨
    t + jitter ≤ s.lastWritten + 2 * s.interval + ε + slack

structure Paced (ε : ℕ) (s : Heartbeater) : Prop where
  period : s.ticker.period = s.interval
  heard : s.lastSent ≤ s.lastWritten + ε
  written : s.lastWritten ≤ s.now
  writers : ∀ w ∈ s.writers, w ≤ s.lastWritten ∧ s.now ≤ w + ε
  late : s.now ≤ s.ticker.due + ε
  soon : s.ticker.due ≤ s.now + s.interval
  ticks : ∀ tick, s.InFlight tick → tick ≤ s.now ∧ s.now ≤ tick + ε ∧
    s.ticker.due ≤ tick + s.interval ∧ tick + s.interval ≤ s.ticker.due + ε ∧
    s.Soon ε tick ε
  idle : (∀ tick, ¬ s.InFlight tick) → s.Soon ε s.ticker.due 0
  single : ∀ tick, s.phase = .ticked tick → s.ticker.buffer = none

theorem paced_start (interval now : ℕ) : Paced ε (start interval now) where
  period := rfl
  heard := Nat.le_add_right _ _
  written := Nat.le_refl _
  writers := by simp [start]
  late := by simp only [start, Ticker.new]; omega
  soon := Nat.le_refl _
  ticks := by simp [start, Ticker.new, InFlight]
  idle := fun _ => .inl (Nat.le_add_right _ _)
  single := by simp [start]

/-- The goroutine goes on to something that has no tick in it. -/
theorem Paced.move {p : HeartbeatPhase} (h : Paced ε s) (hphase : ∀ tick, s.phase ≠ .ticked tick)
    (hp : ∀ tick, p ≠ .ticked tick) : Paced ε { s with phase := p } := by
  have hticks : ∀ tick, InFlight { s with phase := p } tick ↔ s.InFlight tick := by
    intro tick
    simp [InFlight, hphase tick, hp tick]
  refine ⟨h.period, h.heard, h.written, h.writers, h.late, h.soon, ?_, ?_, ?_⟩
  · intro tick htick
    exact h.ticks tick ((hticks tick).mp htick)
  · intro hidle
    exact h.idle fun tick htick => hidle tick ((hticks tick).mpr htick)
  · intro tick htick
    exact absurd htick (hp tick)

theorem mem_outstanding_of_inFlight {tick : ℕ} (h : s.InFlight tick) : tick ∈ s.outstanding := by
  rcases h with h | h <;> simp [outstanding, h, HeartbeatPhase.since]

theorem Paced.pass (h : Paced ε s) (hinterval : 0 < s.interval) {d : ℕ}
    (hphase : s.phase ≠ .returned) (hintime : s.InTime ε (.pass d)) :
    Paced ε { s with now := s.now + d } := by
  obtain ⟨hlate, houtstanding⟩ := hintime hphase
  refine ⟨h.period, h.heard, ?_, ?_, hlate (h.period.symm ▸ hinterval), ?_, ?_, h.idle, h.single⟩
  · exact Nat.le_trans h.written (Nat.le_add_right _ _)
  · intro w hw
    exact ⟨(h.writers w hw).1, houtstanding w (List.mem_append_right _ hw)⟩
  · have hsoon := h.soon
    dsimp only
    omega
  · intro tick htick
    obtain ⟨hpast, -, hrest⟩ := h.ticks tick htick
    exact ⟨Nat.le_trans hpast (Nat.le_add_right _ _),
      houtstanding tick (mem_outstanding_of_inFlight htick), hrest⟩

/-- No tick fires while another one is in flight. -/
theorem Paced.not_inFlight (h : Paced ε s) (hε : 2 * ε < s.interval)
    (hdue : s.ticker.due ≤ s.now) (tick : ℕ) : ¬ s.InFlight tick := by
  intro htick
  obtain ⟨-, hnow, -, hnext, -⟩ := h.ticks tick htick
  omega

theorem Paced.fire (h : Paced ε s) (hε : 2 * ε < s.interval) {t : Ticker}
    (hfire : s.ticker.fire s.now = some t) : Paced ε { s with ticker := t } := by
  have hlate := h.late
  have hperiod := h.period
  obtain ⟨hdue, rfl⟩ := Ticker.fire_of_lt hfire (by omega)
  have hidle := h.not_inFlight hε hdue
  have hbuffer : s.ticker.buffer = none := by
    rw [Option.eq_none_iff_forall_ne_some]
    exact fun tick htick => hidle tick (.inl htick)
  have hsoon := h.idle hidle
  refine ⟨hperiod, h.heard, h.written, h.writers, ?_, ?_, ?_, ?_, ?_⟩
  · dsimp only
    omega
  · dsimp only
    omega
  · rintro tick (htick | htick)
    · rw [hbuffer, Option.none_or, Option.some.injEq] at htick
      subst htick
      refine ⟨Nat.le_refl _, Nat.le_add_right _ _, ?_, ?_, ?_⟩
      · dsimp only
        omega
      · dsimp only
        omega
      · rcases hsoon with hsoon | hsoon
        · exact .inl (by dsimp only; omega)
        · exact .inr (by dsimp only; omega)
    · exact absurd (.inr htick) (hidle tick)
  · intro hnone
    refine absurd (.inl ?_) (hnone s.now)
    simp [hbuffer]
  · intro tick htick
    exact absurd (.inr htick) (hidle tick)

theorem Paced.takeTick (h : Paced ε s) {tick : ℕ} (htick : s.ticker.buffer = some tick) :
    Paced ε { s with phase := .ticked tick, ticker := s.ticker.receive } := by
  have hticks := h.ticks tick (.inl htick)
  refine ⟨h.period, h.heard, h.written, h.writers, h.late, h.soon, ?_, ?_, fun _ _ => rfl⟩
  · rintro tick' (htick' | htick')
    · cases htick'
    · cases htick'
      exact hticks
  · intro hidle
    exact absurd (.inr rfl) (hidle tick)

/-- A tick that is left out is close to a write, so the next tick is in time. One that is
not left out writes a frame now. -/
theorem Paced.checkTick (h : Paced ε s) {tick : ℕ} (hphase : s.phase = .ticked tick)
    (fails : Bool) :
    Paced ε (s.checkTick tick fails) ∨ (s.checkTick tick fails).phase = .returned := by
  obtain ⟨hpast, hnow, hdue, hnext, -⟩ := h.ticks tick (.inr hphase)
  have hbuffer := h.single tick hphase
  have hheard := h.heard
  rw [Heartbeater.checkTick]
  split
  · split
    · exact .inr rfl
    · split
      · exact .inr rfl
      · refine .inl ⟨h.period, ?_, Nat.le_refl _, ?_, h.late, h.soon, ?_, ?_, ?_⟩
        · have hwritten := h.written
          dsimp only
          omega
        · intro w hw
          have hwritten := h.written
          obtain ⟨hle, hlate⟩ := h.writers w hw
          exact ⟨Nat.le_trans hle hwritten, hlate⟩
        · intro tick' htick'
          simp [InFlight, hbuffer] at htick'
        · intro _
          exact .inl (by dsimp only; omega)
        · intro tick' htick'
          cases htick'
  · rename_i hearly
    simp only [heartbeatDue, decide_eq_true_eq, gt_iff_lt, Int.not_lt] at hearly
    refine .inl ⟨h.period, hheard, h.written, h.writers, h.late, h.soon, ?_, ?_, ?_⟩
    · intro tick' htick'
      simp [InFlight, hbuffer] at htick'
    · intro _
      exact .inr (by dsimp only; omega)
    · intro tick' htick'
      cases htick'

theorem Paced.write (h : Paced ε s) :
    Paced ε { s with lastWritten := s.now, writers := s.now :: s.writers } := by
  have hwritten := h.written
  refine ⟨h.period, ?_, Nat.le_refl _, ?_, h.late, h.soon, ?_, ?_, h.single⟩
  · exact Nat.le_trans h.heard (Nat.add_le_add_right hwritten ε)
  · intro w hw
    rcases List.mem_cons.mp hw with rfl | hw
    · exact ⟨Nat.le_refl _, Nat.le_add_right _ _⟩
    · obtain ⟨hle, hlate⟩ := h.writers w hw
      exact ⟨Nat.le_trans hle hwritten, hlate⟩
  · intro tick htick
    obtain ⟨hpast, hnow, hdue, hnext, -⟩ := h.ticks tick htick
    exact ⟨hpast, hnow, hdue, hnext, .inl (by dsimp only; omega)⟩
  · intro _
    exact .inl (Nat.le_trans h.soon (Nat.le_add_right _ _))

theorem Paced.notify (h : Paced ε s) {w lastSent : ℕ}
    (hsent : lastSent ≤ s.lastWritten + ε) :
    Paced ε { s with writers := s.writers.erase w, lastSent := lastSent } :=
  ⟨h.period, hsent, h.written, fun w hw => h.writers w (List.mem_of_mem_erase hw), h.late,
    h.soon, h.ticks, h.idle, h.single⟩

/-- The reader's side has no part in the pace. -/
theorem Paced.read (h : Paced ε s) (deadlines readDeadline : Option ℕ) (reader : FrameReader)
    (closed : Bool) (lastRead : ℕ) :
    Paced ε { s with deadlines, readDeadline, reader, closed, lastRead } :=
  ⟨h.period, h.heard, h.written, h.writers, h.late, h.soon, h.ticks, h.idle, h.single⟩

theorem failed_of_setReadDeadline {r : DeadlineResult}
    (h : (s.setReadDeadline r).phase = .returned) : (s.setReadDeadline r).failed = true := by
  cases r with
  | ok => simp only [Heartbeater.setReadDeadline] at h; split at h <;> cases h
  | opError => cases h
  | otherError =>
      simp only [Heartbeater.setReadDeadline] at h ⊢
      split at h
      · rw [if_pos ‹_›]
      · cases h

theorem Paced.setReadDeadline (h : Paced ε s) {read : ℕ} (hphase : s.phase = .resetting read)
    (r : DeadlineResult) (hwaiting : (s.setReadDeadline r).phase ≠ .returned) :
    Paced ε (s.setReadDeadline r) := by
  have hmove : Paced ε { s with phase := .waiting } := h.move (by simp [hphase]) (by simp)
  cases r with
  | ok =>
      rw [Heartbeater.setReadDeadline]
      split
      · exact hmove.read _ _ _ _ _
      · exact hmove
  | opError => exact hmove
  | otherError =>
      rw [Heartbeater.setReadDeadline] at hwaiting ⊢
      split at hwaiting
      · exact absurd rfl hwaiting
      · rw [if_neg ‹_›]
        exact hmove

/-- The heartbeater returns only from a connection that is closed or failed. -/
structure Pace (ε interval : ℕ) (s : Heartbeater) : Prop where
  interval : s.interval = interval
  paced : s.phase ≠ .returned → Paced ε s
  returned : s.phase = .returned → s.closed = true ∨ s.failed = true

theorem Pace.next (hε : 2 * ε < interval) (h : Pace ε interval s) (hintime : s.InTime ε a)
    (hnext : s.next a = some s') : Pace ε interval s' := by
  have hinterval := h.interval
  cases step_of_next hnext with
  | pass d =>
      refine ⟨hinterval, fun hphase => ?_, h.returned⟩
      exact (h.paced hphase).pass (by omega) hphase hintime
  | fire hfire =>
      refine ⟨hinterval, fun hphase => ?_, h.returned⟩
      exact (h.paced hphase).fire (by omega) hfire
  | takeTick hphase htick =>
      have hpaced := h.paced (by simp [hphase])
      exact ⟨hinterval, fun _ => hpaced.takeTick htick, by simp⟩
  | @checkTick tick fails hphase =>
      have hpaced := h.paced (by simp [hphase])
      refine ⟨?_, fun hwaiting => ?_, ?_⟩
      · obtain ⟨p, lastWritten, failed, -, heq⟩ := checkTick_eq s tick fails
        rw [heq]
        exact hinterval
      · exact (hpaced.checkTick hphase fails).resolve_right hwaiting
      · rw [Heartbeater.checkTick]
        repeat' split
        all_goals simp_all
  | write => exact ⟨hinterval, fun hphase => (h.paced hphase).write, h.returned⟩
  | @heard w hw =>
      refine ⟨hinterval, fun hphase => ?_, h.returned⟩
      obtain ⟨hle, hlate⟩ := (h.paced hphase).writers w hw
      exact (h.paced hphase).notify (by omega)
  | unheard hw =>
      refine ⟨hinterval, fun hphase => ?_, h.returned⟩
      exact (h.paced hphase).notify (h.paced hphase).heard
  | readFrame =>
      exact ⟨hinterval, fun hphase => (h.paced hphase).read _ _ _ _ _, h.returned⟩
  | demuxed =>
      exact ⟨hinterval, fun hphase => (h.paced hphase).read _ _ _ _ _, h.returned⟩
  | @takeDeadline read hphase =>
      have hpaced := h.paced (by simp [hphase])
      refine ⟨hinterval, fun _ => ?_, by simp⟩
      have hmove := hpaced.move (p := .resetting read) (by simp [hphase]) (by simp)
      exact hmove.read _ _ _ _ _
  | @setReadDeadline read r hphase =>
      have hpaced := h.paced (by simp [hphase])
      refine ⟨?_, hpaced.setReadDeadline hphase r, ?_⟩
      · rw [(setReadDeadline_frame s r).1, hinterval]
      · exact fun hreturned => .inr (failed_of_setReadDeadline hreturned)
  | openComplete =>
      exact ⟨hinterval, fun hphase => (h.paced hphase).read _ _ _ _ _, h.returned⟩
  | timeout =>
      exact ⟨hinterval, fun hphase => (h.paced hphase).read _ _ _ _ _, fun _ => .inl rfl⟩
  | shutdown =>
      exact ⟨hinterval, fun hphase => (h.paced hphase).read _ _ _ _ _, fun _ => .inl rfl⟩
  | done hphase hclosed =>
      exact ⟨hinterval, fun hwaiting => absurd rfl hwaiting, fun _ => .inl hclosed⟩

theorem Paced.now_le (h : Paced ε s) (hε : 2 * ε < s.interval) (hjitter : 3 * ε ≤ jitter) :
    s.now ≤ s.lastWritten + 2 * s.interval := by
  by_cases hticks : ∃ tick, s.InFlight tick
  · obtain ⟨tick, htick⟩ := hticks
    obtain ⟨-, hnow, -, -, hsoon⟩ := h.ticks tick htick
    rcases hsoon with hsoon | hsoon <;> omega
  · have hlate := h.late
    rcases h.idle (not_exists.mp hticks) with hsoon | hsoon <;> omega

/-- In a run in which nothing is late by more than `ε`, a frame is written within every
heartbeat interval for as long as the heartbeater runs, and it stops only when the connection
was closed, a heartbeat could not be written or the deadline not be set. -/
theorem frame_in_every_interval {heartbeat now : ℕ} {as : List HeartbeatAction}
    (hε : 2 * ε < heartbeat / 2) (hjitter : 3 * ε ≤ jitter)
    (hrun : Run next (InTime ε) (start (heartbeat / 2) now) as s) :
    (s.phase ≠ .returned → s.now ≤ s.lastWritten + heartbeat) ∧
      (s.phase = .returned → s.closed = true ∨ s.failed = true) := by
  have hpace : Pace ε (heartbeat / 2) s :=
    hrun.invariant ⟨rfl, fun _ => paced_start _ _, by simp [start]⟩
      fun _ _ _ h hintime hnext => h.next hε hintime hnext
  refine ⟨fun hphase => ?_, hpace.returned⟩
  have hinterval := hpace.interval
  have hle := (hpace.paced hphase).now_le (by omega) hjitter
  omega

/-- A heartbeat of ten seconds: the first tick writes a frame, the second one is left out
because of a write half a second earlier. -/
theorem frame_in_every_interval_ten_seconds :
    ∃ s, Run next (InTime 10000000) (start (10000000000 / 2) 0)
        [.pass 5000000000, .fire, .takeTick, .checkTick false, .pass 4500000000, .write,
          .notify 9500000000 true, .pass 500000000, .fire, .takeTick, .checkTick false] s ∧
      s.lastWritten = 9500000000 ∧ s.now ≤ s.lastWritten + 10000000000 := by
  have hrun : Run next (InTime 10000000) (start (10000000000 / 2) 0)
      [.pass 5000000000, .fire, .takeTick, .checkTick false, .pass 4500000000, .write,
        .notify 9500000000 true, .pass 500000000, .fire, .takeTick, .checkTick false]
      { start 5000000000 0 with
        now := 10000000000
        lastSent := 9500000000
        ticker := ⟨5000000000, 15000000000, none⟩
        lastWritten := 9500000000 } := .of_exec (by decide +kernel)
  exact ⟨_, hrun, rfl, (frame_in_every_interval (by decide) (by decide) hrun).1 (by decide)⟩

end Heartbeater

end Amqp091
