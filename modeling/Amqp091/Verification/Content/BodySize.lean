import Amqp091.Verification.Content.Crash
import Amqp091.Verification.Content.Sequences

/-! # The length of a message's body

`recvContent` completes a message when the body is at least as long as the header says. -/

namespace Amqp091

open ByteCodec

namespace Reassembly

variable {rt : GoRuntime}

/-- A frame of the sequence arrives when the fields of the channel are `ch`. -/
def Arrives (rt : GoRuntime) (frames : List Frame) (ch : Reassembly) (f : Frame) : Prop :=
  ∃ front rest outs, frames = front ++ f :: rest ∧ start.run rt front = (outs, some ch)

theorem Arrives.pending {frames : List Frame} {ch : Reassembly} {f : Frame}
    (h : Arrives rt frames ch f) :
    ∃ pending state, Refines ch state ∧ Pending rt pending state := by
  obtain ⟨front, rest, outs, -, hrun⟩ := h
  obtain ⟨state, hstate, hrefines⟩ := refines_start.recvRun hrun
  obtain ⟨pending, hpending⟩ := Pending.idle.run hstate
  exact ⟨pending, state, hrefines, hpending⟩

theorem content_not_of_recvMethod {ch ch' : Reassembly} {f : Frame} {message : Message}
    {properties : Properties} {body : Bytes} :
    ch.recvMethod f ≠ some (ch', some (.content message properties body)) := by
  cases f with
  | method channelId classId methodId m =>
      cases m with
      | none => simp [recvMethod]
      | some m => by_cases hm : m.hasContent = true <;> simp [recvMethod, hm]
  | header => simp [recvMethod]
  | body => simp [recvMethod]
  | heartbeat => simp [recvMethod]

/-- A chunk that can be stored, over the fields of the channel. -/
theorem step_body (message : Message) (properties : Properties) (id : UInt16) {size : UInt64}
    {body chunk : Bytes} {cap : ℕ} (hcap : CapOk rt body cap) (hsize : size ≠ 0)
    (hstored : ¬ BodyOverflows rt size body chunk cap) :
    ∃ cap', step rt ⟨.recvContent, some message, some (size, properties), body, cap⟩
        (.body id chunk) =
      if size.toNat ≤ (body ++ chunk).length then
        some (⟨.recvMethod, some message, some (size, properties), body ++ chunk, cap'⟩,
          some (.content message properties (body ++ chunk)))
      else some (⟨.recvContent, some message, some (size, properties), body ++ chunk, cap'⟩,
        none) := by
  have hrecv : Amqp091.recv rt (.recvContent message size properties body cap)
      (.body id chunk) ≠ none := fun hnone => hstored (recv_body_crashes.mp hnone)
  obtain ⟨cap', cap'', hreserve, happend, -, hle⟩ := exists_stored hrecv hcap hsize
  refine ⟨cap'', ?_⟩
  rw [step, recvContent_body id hreserve happend]
  simp only [hle]

/-- Every body frame that arrives while a message is collected, and can be stored, stays
within the size in the header. -/
def NoOverrun (rt : GoRuntime) (frames : List Frame) : Prop :=
  ∀ ch id chunk size properties, Arrives rt frames ch (.body id chunk) →
    ch.recv = .recvContent → ch.header = some (size, properties) →
    ¬ BodyOverflows rt size ch.body chunk ch.cap → (ch.body ++ chunk).length ≤ size.toNat

/-- What is dispatched with content has a body as long as the header says. -/
def SizesExact (rt : GoRuntime) (frames : List Frame) : Prop :=
  ∀ ch f ch' message properties body, Arrives rt frames ch f →
    ch.step rt f = some (ch', some (.content message properties body)) →
    ∃ size, ch'.header = some (size, properties) ∧ body.length = size.toNat

theorem noOverrun_of_sizesExact {frames : List Frame} (hexact : SizesExact rt frames) :
    NoOverrun rt frames := by
  intro ch id chunk size properties harrives hcontent hheader hstored
  obtain ⟨pending, state, hrefines, hpending⟩ := harrives.pending
  cases hrefines with
  | recvMethod => cases hcontent
  | recvHeader => cases hcontent
  | recvContent message size' properties' body cap =>
      cases hheader
      cases hpending with
      | content bodies hmessage hsize hshort hcap =>
          obtain ⟨cap', hstep⟩ := step_body message properties id hcap hsize hstored
          by_cases hlong : size.toNat ≤ ((bodies.map Prod.snd).flatten ++ chunk).length
          · rw [if_pos hlong] at hstep
            obtain ⟨announced, hannounced, hlen⟩ := hexact _ _ _ _ _ _ harrives hstep
            cases hannounced
            exact hlen.le
          · exact (Nat.lt_of_not_le hlong).le

theorem sizesExact_of_noOverrun {frames : List Frame} (hbounded : NoOverrun rt frames) :
    SizesExact rt frames := by
  intro ch f ch' message properties body harrives hstep
  obtain ⟨pending, state, hrefines, hpending⟩ := harrives.pending
  cases hrefines with
  | recvMethod => exact absurd hstep content_not_of_recvMethod
  | recvHeader message' header =>
      cases f with
      | method => exact absurd hstep content_not_of_recvMethod
      | header channelId classId weight size properties' =>
          by_cases hsize : size = 0
          · subst hsize
            cases hstep
            exact ⟨0, rfl, rfl⟩
          · simp [step, recvHeader, hsize] at hstep
      | body => cases hstep
      | heartbeat => cases hstep
  | recvContent message' size properties' collected cap =>
      cases f with
      | method => exact absurd hstep content_not_of_recvMethod
      | header => cases hstep
      | body channelId chunk =>
          cases hpending with
          | content bodies hmessage hsize hshort hcap =>
              have hstored : ¬ BodyOverflows rt size (bodies.map Prod.snd).flatten chunk cap := by
                intro hoverflows
                have hrefines := Refines.recvContent message' size properties'
                  (bodies.map Prod.snd).flatten cap
                rw [hrefines.step_eq_none (recv_body_crashes.mpr hoverflows)] at hstep
                cases hstep
              have hle := hbounded _ _ _ _ _ harrives rfl rfl hstored
              obtain ⟨cap', hbody⟩ := step_body message' properties' channelId hcap hsize hstored
              by_cases hlong : size.toNat ≤ ((bodies.map Prod.snd).flatten ++ chunk).length
              · rw [hbody, if_pos hlong] at hstep
                cases hstep
                exact ⟨size, rfl, Nat.le_antisymm hle hlong⟩
              · rw [hbody, if_neg hlong] at hstep
                cases hstep
      | heartbeat => cases hstep

/-- All bodies have the announced length exactly when no body frame overruns it. -/
theorem sizes_exact_iff (rt : GoRuntime) (frames : List Frame) :
    SizesExact rt frames ↔ NoOverrun rt frames :=
  ⟨noOverrun_of_sizesExact, sizesExact_of_noOverrun⟩

/-- Two bytes for a body of one byte. -/
theorem overrun_delivered :
    let deliver : Message := ⟨.basicDeliver, ([], (1 : UInt64), #v[false], [], [], ())⟩
    let frames : List Frame :=
      [.method 1 60 60 (some deliver), .header 1 60 0 1 {}, .body 1 [7, 8]]
    (start.run .exact frames).1 = [.content deliver {} [7, 8]] ∧ ¬ SizesExact .exact frames := by
  intro deliver frames
  refine ⟨rfl, fun hexact => ?_⟩
  have harrives : Arrives .exact frames
      ⟨.recvContent, some deliver, some (1, {}), [], 0⟩ (.body 1 [7, 8]) :=
    ⟨[.method 1 60 60 (some deliver), .header 1 60 0 1 {}], [], [], rfl, rfl⟩
  obtain ⟨size, hheader, hlen⟩ := hexact _ _ _ _ _ _ harrives rfl
  cases hheader
  exact absurd hlen (by decide)

end Reassembly

end Amqp091
