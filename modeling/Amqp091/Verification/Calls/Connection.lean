import Amqp091.Algorithm.CallConnection
import Amqp091.Verification.Calls.Channel

/-! # Steps of the calls on a connection -/

namespace Amqp091

namespace CallChannel

theorem Action.isCall_of_isOwn {b : Action} (h : b.isOwn = true) : b.isCall = false := by
  cases b with
  | call => cases h
  | _ => rfl

end CallChannel

namespace CallConnection

/-- The call a step belongs to. -/
def Action.index : Action → Option (ChannelRef × ℕ)
  | .test ch i | .write ch i _ | .takeError ch i | .takeReply ch i => some (ch, i)
  | _ => none

/-! ## What a step can do -/

/-- The steps, with what was tested before them. In `own` a call or the shutdown of a channel
goes on, `reply` ends the offer of the reader, `read` is a frame that does not concern calls. -/
inductive Step (s : CallConnection) : CallConnection → Prop
  | openChannel {s' : CallConnection} (hopen : s.openChannel = some s') : Step s s'
  | opened {ch : ChannelRef} {r : ChannelResult} (hresult : s.openResult ch = some r) :
      Step s (s.setOpening ch .opened)
  | openFailed {ch : ChannelRef} {r : ChannelResult} {t : CallConnection}
      (hresult : s.openResult ch = some r) (ht : s.release ch = some t) :
      Step s (t.setOpening ch .failed)
  | call {ch : ChannelRef} {req : Message} {res : List Method} {s' : CallConnection}
      (hopened : s.opening ch = .opened) (hlift : s.lift ch (.call req res) = some s') : Step s s'
  | own {ch : ChannelRef} {b : CallChannel.Action} {s' : CallConnection}
      (hown : b.isOwn = true) (hoffer : b.endsOffer = false) (hlift : s.lift ch b = some s') :
      Step s s'
  | reply {ch : ChannelRef} {b : CallChannel.Action} {t : CallConnection}
      (hreader : s.reader = .offering ch) (hown : b.isOwn = true)
      (ht : s.lift ch b = some t) : Step s { t with reader := .reading }
  | read : Step s s
  | readClose {id : UInt16} {ch : ChannelRef} {t : CallConnection} (e : Error)
      (hreader : s.reader = .reading) (hlookup : s.registry.lookupChannel id = some ch)
      (ht : s.lift ch .setClosed = some t) : Step s { t with reader := .closing ch e }
  | readOffer {id : UInt16} {ch : ChannelRef} {m : Message} {t : CallConnection}
      (hreader : s.reader = .reading) (hlookup : s.registry.lookupChannel id = some ch)
      (ht : s.lift ch (.offer m) = some t) : Step s { t with reader := .offering ch }
  | readerShutdown {ch : ChannelRef} {e : Error} {t : CallConnection}
      (hreader : s.reader = .closing ch e) (ht : s.lift ch (.shutdown (some e)) = some t) :
      Step s { t with reader := .releasing ch }
  | readerRelease {ch : ChannelRef} {t : CallConnection} (hreader : s.reader = .releasing ch)
      (hfinished : (s.channels ch).stage = .finished) (ht : s.release ch = some t) :
      Step s { t with reader := .reading }
  | closeChannel {ch : ChannelRef} {t : CallConnection} (hopened : s.opening ch = .opened)
      (ht : s.lift ch (.shutdown none) = some t) : Step s { t with closers := ch :: t.closers }
  | release {ch : ChannelRef} {t : CallConnection}
      (hfinished : (s.channels ch).stage = .finished) (ht : s.release ch = some t) :
      Step s { t with closers := t.closers.erase ch }
  | setClosed : Step s { s with registry := s.registry.setClosed }
  | shutdown {err : Option Error} {order : List ChannelRef} (hclosed : s.registry.closed = true)
      (hperm : order.Perm s.registered) :
      Step s { s with stage := .shutting none order, err := err }
  | shutdownChannel {ch : ChannelRef} {rest : List ChannelRef} {t : CallConnection}
      (hstage : s.stage = .shutting none (ch :: rest))
      (ht : s.lift ch (.shutdown s.err) = some t) :
      Step s { t with stage := .shutting (some ch) rest }
  | shutdownReturn {ch : ChannelRef} {rest : List ChannelRef}
      (hstage : s.stage = .shutting (some ch) rest)
      (hfinished : (s.channels ch).stage = .finished) :
      Step s { s with stage := .shutting none rest }
  | finish (hstage : s.stage = .shutting none []) :
      Step s { s with registry := s.registry.shutdownBody, stage := .finished }

theorem step_of_read {s s' : CallConnection} {id : UInt16} {m : Message} {e : Error}
    (h : s.read id m e = some s') : s.Step s' := by
  unfold CallConnection.read at h
  split at h
  · next ch hreader hlookup =>
      split at h
      · obtain ⟨t, ht, rfl⟩ := Option.map_eq_some_iff.mp h
        exact .readClose e hreader hlookup ht
      · split at h
        · obtain ⟨t, ht, rfl⟩ := Option.map_eq_some_iff.mp h
          exact .readOffer hreader hlookup ht
        · cases h
          exact .read
  · cases h
    exact .read
  · cases h

theorem step_of_next {s s' : CallConnection} {a : Action} (h : s.next a = some s') :
    s.Step s' := by
  cases a with
  | openChannel => exact .openChannel h
  | opened ch =>
      simp only [next] at h
      split at h
      · next r hresult =>
          split at h <;> cases h
          exact .opened hresult
      · cases h
  | openFailed ch =>
      simp only [next] at h
      split at h
      · next r hresult =>
          split at h
          · cases h
          · obtain ⟨t, ht, rfl⟩ := Option.map_eq_some_iff.mp h
            exact .openFailed hresult ht
      · cases h
  | call ch req res =>
      obtain ⟨hopened, hlift⟩ := Option.ite_none_right_eq_some.mp h
      exact .call hopened hlift
  | test | write | takeError | sendError | closeErrors | finishChannel =>
      exact .own rfl rfl h
  | takeReply ch i =>
      obtain ⟨hreader, hmap⟩ := Option.ite_none_right_eq_some.mp h
      obtain ⟨t, ht, rfl⟩ := Option.map_eq_some_iff.mp hmap
      exact .reply hreader rfl ht
  | read id m e => exact step_of_read (Option.ite_none_left_eq_some.mp h).2
  | giveUp =>
      simp only [next] at h
      split at h
      · next hreader =>
          obtain ⟨t, ht, rfl⟩ := Option.map_eq_some_iff.mp h
          exact .reply hreader rfl ht
      · cases h
  | readerShutdown =>
      simp only [next] at h
      split at h
      · next hreader =>
          obtain ⟨t, ht, rfl⟩ := Option.map_eq_some_iff.mp h
          exact .readerShutdown hreader ht
      · cases h
  | readerRelease =>
      simp only [next] at h
      split at h
      · next hreader =>
          obtain ⟨hfinished, hmap⟩ := Option.ite_none_right_eq_some.mp h
          obtain ⟨t, ht, rfl⟩ := Option.map_eq_some_iff.mp hmap
          exact .readerRelease hreader hfinished ht
      · cases h
  | closeChannel ch =>
      obtain ⟨hopened, hmap⟩ := Option.ite_none_right_eq_some.mp h
      obtain ⟨t, ht, rfl⟩ := Option.map_eq_some_iff.mp hmap
      exact .closeChannel hopened ht
  | release ch =>
      obtain ⟨⟨-, hfinished⟩, hmap⟩ := Option.ite_none_right_eq_some.mp h
      obtain ⟨t, ht, rfl⟩ := Option.map_eq_some_iff.mp hmap
      exact .release hfinished ht
  | setClosed =>
      cases h
      exact .setClosed
  | shutdown err order =>
      obtain ⟨⟨-, hclosed, hperm⟩, ⟨⟩⟩ := Option.ite_none_right_eq_some.mp h
      exact .shutdown hclosed hperm
  | shutdownChannel =>
      simp only [next] at h
      split at h
      · next hstage =>
          obtain ⟨t, ht, rfl⟩ := Option.map_eq_some_iff.mp h
          exact .shutdownChannel hstage ht
      · cases h
  | shutdownReturn =>
      simp only [next] at h
      split at h
      · next hstage =>
          obtain ⟨hfinished, ⟨⟩⟩ := Option.ite_none_right_eq_some.mp h
          exact .shutdownReturn hstage hfinished
      · cases h
  | finish =>
      simp only [next] at h
      split at h
      · next hstage =>
          cases h
          exact .finish hstage
      · cases h

end CallConnection

end Amqp091
