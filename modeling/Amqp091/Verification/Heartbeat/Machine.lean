import Amqp091.Algorithm.Heartbeater
import Amqp091.Shared.Transition
import Mathlib.Tactic.Common

/-! # Steps of the heartbeater -/

namespace Amqp091

open Timers

namespace Heartbeater

/-- What each action does, with the conditions under which it is enabled. -/
inductive Step (s : Heartbeater) : HeartbeatAction → Heartbeater → Prop
  | pass (d : ℕ) : Step s (.pass d) { s with now := s.now + d }
  | fire {t : Ticker} (hfire : s.ticker.fire s.now = some t) : Step s .fire { s with ticker := t }
  | takeTick {tick : ℕ} (hphase : s.phase = .waiting) (htick : s.ticker.buffer = some tick) :
      Step s .takeTick { s with phase := .ticked tick, ticker := s.ticker.receive }
  | checkTick {tick : ℕ} (fails : Bool) (hphase : s.phase = .ticked tick) :
      Step s (.checkTick fails) (s.checkTick tick fails)
  | write : Step s .write { s with lastWritten := s.now, writers := s.now :: s.writers }
  | heard {w : ℕ} (hw : w ∈ s.writers) (hparked : s.parked = true) :
      Step s (.notify w true) { s with writers := s.writers.erase w, lastSent := s.now }
  | unheard {w : ℕ} (hw : w ∈ s.writers) :
      Step s (.notify w false) { s with writers := s.writers.erase w }
  | readFrame (hreader : s.reader = .reading) :
      Step s .readFrame { s with reader := .demuxing s.now, lastRead := s.now }
  | demuxed {read : ℕ} (hreader : s.reader = .demuxing read) :
      Step s .demuxed { s with reader := .reading, deadlines := s.deadlines.or (some read) }
  | takeDeadline {read : ℕ} (hphase : s.phase = .waiting) (hread : s.deadlines = some read) :
      Step s .takeDeadline { s with phase := .resetting read, deadlines := none }
  | setReadDeadline {read : ℕ} (r : DeadlineResult) (hphase : s.phase = .resetting read) :
      Step s (.setReadDeadline r) (s.setReadDeadline r)
  | openComplete : Step s .openComplete { s with readDeadline := none }
  | timeout {deadline : ℕ} (hreader : s.reader = .reading)
      (hdeadline : s.readDeadline = some deadline) (hlate : deadline ≤ s.now) :
      Step s .timeout { s with reader := .stopped, closed := true }
  | shutdown : Step s .shutdown { s with closed := true }
  | done (hphase : s.phase = .waiting) (hclosed : s.closed = true) :
      Step s .done { s with phase := .returned }

theorem step_of_next {s s' : Heartbeater} {a : HeartbeatAction} (h : s.next a = some s') :
    s.Step a s' := by
  cases a with
  | pass d =>
      cases h
      exact .pass d
  | fire =>
      obtain ⟨t, ht, rfl⟩ := Option.map_eq_some_iff.mp h
      exact .fire ht
  | takeTick =>
      simp only [next] at h
      split at h <;> cases h
      exact .takeTick ‹_› ‹_›
  | checkTick fails =>
      simp only [next] at h
      split at h <;> cases h
      exact .checkTick fails ‹_›
  | write =>
      cases h
      exact .write
  | notify w taken =>
      simp only [next] at h
      split at h
      · rename_i hnotify
        obtain rfl := Option.some.inj h
        cases taken with
        | true => exact .heard hnotify.1 (hnotify.2 rfl)
        | false => exact .unheard hnotify.1
      · cases h
  | readFrame =>
      simp only [next] at h
      split at h <;> cases h
      exact .readFrame ‹_›
  | demuxed =>
      simp only [next] at h
      split at h <;> cases h
      exact .demuxed ‹_›
  | takeDeadline =>
      simp only [next] at h
      split at h <;> cases h
      exact .takeDeadline ‹_› ‹_›
  | setReadDeadline r =>
      simp only [next] at h
      split at h <;> cases h
      exact .setReadDeadline r ‹_›
  | openComplete =>
      cases h
      exact .openComplete
  | timeout =>
      simp only [next] at h
      split at h
      · split at h <;> cases h
        exact .timeout ‹_› ‹_› ‹_›
      · cases h
  | shutdown =>
      cases h
      exact .shutdown
  | done =>
      simp only [next] at h
      split at h <;> cases h
      exact .done ‹_› ‹_›

/-- A tick changes nothing on the reader's side. -/
theorem checkTick_eq (s : Heartbeater) (tick : ℕ) (fails : Bool) :
    ∃ p lastWritten failed, (∀ read, p ≠ .resetting read) ∧
      s.checkTick tick fails = { s with phase := p, lastWritten, failed } := by
  rw [checkTick]
  repeat' split
  · exact ⟨.returned, s.lastWritten, s.failed, by simp, rfl⟩
  · exact ⟨.returned, s.lastWritten, true, by simp, rfl⟩
  · exact ⟨.waiting, s.now, s.failed, by simp, rfl⟩
  · exact ⟨.waiting, s.lastWritten, s.failed, by simp, rfl⟩

theorem setReadDeadline_frame (s : Heartbeater) (r : DeadlineResult) :
    (s.setReadDeadline r).interval = s.interval ∧ (s.setReadDeadline r).closed = s.closed := by
  cases r with
  | opError => exact ⟨rfl, rfl⟩
  | _ =>
      rw [setReadDeadline]
      split <;> exact ⟨rfl, rfl⟩

end Heartbeater

/-! ## Runs in time -/

/-- The time of the tick or of the frame that the goroutine is dealing with. -/
def HeartbeatPhase.since : HeartbeatPhase → Option ℕ
  | .ticked tick => some tick
  | .resetting read => some read
  | _ => none

def FrameReader.since : FrameReader → Option ℕ
  | .demuxing read => some read
  | _ => none

namespace Heartbeater

/-- The times of what is not dealt with yet. -/
def outstanding (s : Heartbeater) : List ℕ :=
  s.ticker.buffer.toList ++ s.phase.since.toList ++ s.reader.since.toList ++
    s.deadlines.toList ++ s.writers

/-- Time passes by at most `ε` before a tick that is due fires and before anything that is
outstanding is dealt with, for as long as the heartbeater runs. -/
def InTime (ε : ℕ) (s : Heartbeater) : HeartbeatAction → Prop
  | .pass d =>
      s.phase ≠ .returned →
        (0 < s.ticker.period → s.now + d ≤ s.ticker.due + ε) ∧
          ∀ t ∈ s.outstanding, s.now + d ≤ t + ε
  | _ => True

instance (ε : ℕ) (s : Heartbeater) : (a : HeartbeatAction) → Decidable (s.InTime ε a)
  | .pass d => inferInstanceAs (Decidable (_ → _ ∧ ∀ t ∈ s.outstanding, s.now + d ≤ t + ε))
  | .fire | .takeTick | .checkTick _ | .write | .notify .. | .readFrame | .demuxed
  | .takeDeadline | .setReadDeadline _ | .openComplete | .timeout | .shutdown | .done =>
      inferInstanceAs (Decidable True)

end Heartbeater

end Amqp091
