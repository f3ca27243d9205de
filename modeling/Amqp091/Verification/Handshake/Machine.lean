import Amqp091.Algorithm.Handshake
import Amqp091.Verification.Rpc.Truthful

/-! # Steps of an opening -/

namespace Amqp091

namespace Handshake

/-- What each action does, with the conditions under which it is enabled. -/
inductive Step (s : Handshake) : OpenAction → Handshake → Prop
  | dial (failure : Option String) (hphase : s.phase = .dialing) :
      Step s (.dial failure)
        { s with
          established := failure.isNone
          phase := afterFailure failure (if s.plan.hasDial then .connected else .settingDeadline) }
  | setDeadline (failure : Option String) (hphase : s.phase = .settingDeadline) :
      Step s (.setDeadline failure) { s with phase := afterFailure failure .connected }
  | tlsConfig (failure : Option String) (hphase : s.phase = .connected)
      (hamqps : s.plan.amqps = true) (hnone : s.plan.hasTLS = false) :
      Step s (.tlsConfig failure) { s with phase := afterFailure failure .securing }
  | tlsGiven (failure : Option String) (hphase : s.phase = .connected)
      (htls : s.plan.hasTLS = true) : Step s (.tlsConfig failure) { s with phase := .securing }
  | noTLS (failure : Option String) (hphase : s.phase = .connected)
      (hamqp : s.plan.amqps = false) : Step s (.tlsConfig failure) { s with phase := .opening }
  | tlsHandshake (failure : Option String) (hphase : s.phase = .securing) :
      Step s (.tlsHandshake failure)
        { s with phase := afterFailure failure .opening, closed := failure.isSome }
  | create (hphase : s.phase = .opening) :
      Step s .create { s with phase := .sendingHeader, link := some .start }
  | send {l : RpcLink} {phase : OpenPhase} (failure : Option String) (hlink : s.link = some l)
      (hafter : afterSend s.phase (l.send failure).2 = some phase) :
      Step s (.send failure) { s with phase := phase, link := some (l.send failure).1 }
  | select {l l' : RpcLink} {m : Method} {c : RpcLink.Case} {r : RpcLink.Received}
      (hlink : s.link = some l) (hexpected : expected s.phase = some m)
      (hselect : l.Select c l' r) :
      Step s (.select c) { s with phase := afterCall s.phase (l'.result [m] r), link := some l' }
  | pick {l : RpcLink} {k : ℕ} (hlink : s.link = some l) (hphase : s.phase = .picking k) :
      Step s .pick
        { s with
          phase := if (s.mechanism l k).isSome then .sendingStartOk
            else .returned (some errSASL) }
  | link {l l' : RpcLink} {a : RpcAction} (hlink : s.link = some l)
      (hphase : ∀ r, s.phase ≠ .returned r) (hforeign : isForeign a = false)
      (hnext : l.next a = some l') : Step s (.link a) { s with link := some l' }

theorem step_of_next {s s' : Handshake} {a : OpenAction} (h : s.next a = some s') :
    s.Step a s' := by
  cases a with
  | dial failure =>
      simp only [next] at h
      split at h <;> cases h
      exact .dial failure ‹_›
  | setDeadline failure =>
      simp only [next] at h
      split at h <;> cases h
      exact .setDeadline failure ‹_›
  | tlsConfig failure =>
      simp only [next] at h
      split at h <;> cases h
      · exact .tlsConfig failure ‹_› ‹_› ‹_›
      · exact .tlsGiven failure ‹_› ‹_›
      · exact .noTLS failure ‹_› ‹_›
  | tlsHandshake failure =>
      simp only [next] at h
      split at h <;> cases h
      exact .tlsHandshake failure ‹_›
  | create =>
      simp only [next] at h
      split at h <;> cases h
      exact .create ‹_›
  | send failure =>
      simp only [next] at h
      split at h
      · obtain ⟨phase, hafter, rfl⟩ := Option.map_eq_some_iff.mp h
        exact .send failure ‹_› hafter
      · cases h
  | select c =>
      simp only [next] at h
      split at h
      · obtain ⟨⟨l', r⟩, hl, rfl⟩ := Option.map_eq_some_iff.mp h
        exact .select ‹_› ‹_› (RpcLink.select_of_eq hl)
      · cases h
  | pick =>
      simp only [next] at h
      split at h <;> cases h
      exact .pick ‹_› ‹_›
  | link a =>
      simp only [next] at h
      split at h
      · cases h
      · rename_i hlink hphase
        split at h
        · cases h
        · obtain ⟨l', hl, rfl⟩ := Option.map_eq_some_iff.mp h
          exact .link hlink hphase (Bool.eq_false_iff.mpr ‹_›) hl
      · cases h

end Handshake

end Amqp091
