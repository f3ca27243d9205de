import Amqp091.Shared.Url.Host
import Amqp091.Shared.Url.Parse

/-! # Authorities

The userinfo and the host of a printed authority are found again on both sides of the
at sign. -/

namespace Url

open ByteCodec Fallible

variable {s : Bytes}

/-! ## Userinfo -/

theorem escapeByte_userPassword : ∀ c, ∀ b ∈ escapeByte .userPassword c,
    b ≠ ':'.toUInt8 ∧ b ≠ '@'.toUInt8 ∧ b ≠ '/'.toUInt8 ∧ isPlain b = true ∧ b ≠ ' '.toUInt8 ∧
      validUserinfo [b] = true :=
  forall_mem_escapeByte (by decide) (by decide) (by decide) (forall_byte (by decide +kernel))

theorem escapeByte_host : ∀ c, ∀ b ∈ escapeByte .host c,
    b ≠ '@'.toUInt8 ∧ b ≠ '/'.toUInt8 ∧ isPlain b = true ∧ b ≠ ' '.toUInt8 :=
  forall_mem_escapeByte (by decide) (by decide) (by decide) (forall_byte (by decide +kernel))

/-- A byte of a printed userinfo. -/
structure IsUserinfoByte (b : UInt8) : Prop where
  at_sign : b ≠ '@'.toUInt8
  slash : b ≠ '/'.toUInt8
  plain : isPlain b = true
  space : b ≠ ' '.toUInt8
  valid : validUserinfo [b] = true

theorem isUserinfoByte_escape (s : Bytes) : ∀ b ∈ escape s .userPassword, IsUserinfoByte b :=
  forall_mem_escape fun c _ b hb =>
    have h := escapeByte_userPassword c b hb
    ⟨h.2.1, h.2.2.1, h.2.2.2.1, h.2.2.2.2.1, h.2.2.2.2.2⟩

theorem colon_not_mem_escape (s : Bytes) : ':'.toUInt8 ∉ escape s .userPassword := by
  intro hmem
  obtain ⟨c, -, hc⟩ := List.mem_flatMap.mp hmem
  exact (escapeByte_userPassword c _ hc).1 rfl

theorem Userinfo.isUserinfoByte (user : Userinfo) : ∀ b ∈ user.string, IsUserinfoByte b := by
  have hcolon : IsUserinfoByte ':'.toUInt8 :=
    ⟨by decide, by decide, by decide, by decide, by decide⟩
  intro b hb
  rcases List.mem_append.mp hb with hb | hb
  · exact isUserinfoByte_escape _ b hb
  · split at hb
    · rcases List.mem_cons.mp hb with rfl | hb
      · exact hcolon
      · exact isUserinfoByte_escape _ b hb
    · exact absurd hb List.not_mem_nil

/-- Without a password there is none to lose. -/
def Userinfo.Proper (user : Userinfo) : Prop := user.passwordSet = false → user.password = []

theorem parseUserinfo_string {user : Userinfo} (h : user.Proper) :
    parseUserinfo user.string = .ok user := by
  have hvalid : validUserinfo user.string = true := by
    refine List.all_eq_true.mpr fun b hb => ?_
    exact List.all_eq_true.mp (user.isUserinfoByte b hb).valid b (List.mem_singleton_self b)
  have hread : ∀ s, unescape (escape s .userPassword) .userPassword = .ok s := fun s =>
    unescape_escape_self fun c _ => readsBack_userPassword c
  rw [parseUserinfo, hvalid, Bool.not_true, if_neg Bool.false_ne_true]
  obtain ⟨username, password, passwordSet⟩ := user
  cases passwordSet with
  | true =>
      simp only [Userinfo.string, if_true, cut_append (colon_not_mem_escape username), hread]
      rfl
  | false =>
      obtain rfl : password = [] := h rfl
      simp only [Userinfo.string, Bool.false_eq_true, if_false, List.append_nil,
        cut_of_not_mem (colon_not_mem_escape username), hread]
      rfl

/-! ## Both sides -/

theorem at_not_mem_escape (host : Bytes) : '@'.toUInt8 ∉ escape host .host := by
  intro hmem
  obtain ⟨c, -, hc⟩ := List.mem_flatMap.mp hmem
  exact (escapeByte_host c _ hc).1 rfl

theorem parseAuthority_printed {user : Option Userinfo} (h : ∀ u ∈ user, u.Proper)
    (host : Bytes) :
    parseAuthority (userText user ++ escape host .host) =
      (parseHost (escape host .host)).map fun host => (user, host) := by
  rw [parseAuthority]
  cases user with
  | none =>
      rw [userText, List.nil_append, cutLast_of_not_mem (at_not_mem_escape host)]
      cases parseHost (escape host .host) <;> rfl
  | some user =>
      rw [userText, List.append_assoc, List.singleton_append,
        cutLast_append _ (at_not_mem_escape host)]
      simp only [parseUserinfo_string (h user rfl)]
      cases parseHost (escape host .host) <;> rfl

/-- The bytes of a printed authority. -/
theorem authority_bytes (user : Option Userinfo) (host : Bytes) :
    ∀ b ∈ userText user ++ escape host .host,
      (isPlain b = true ∧ b ≠ '/'.toUInt8) ∧ b ≠ ' '.toUInt8 := by
  have hhost : ∀ b ∈ escape host .host,
      (isPlain b = true ∧ b ≠ '/'.toUInt8) ∧ b ≠ ' '.toUInt8 :=
    forall_mem_escape fun c _ b hb =>
      have h := escapeByte_host c b hb
      ⟨⟨h.2.2.1, h.2.1⟩, h.2.2.2⟩
  intro b hb
  rcases List.mem_append.mp hb with hb | hb
  · cases user with
    | none => exact absurd hb List.not_mem_nil
    | some user =>
        rcases List.mem_append.mp hb with hb | hb
        · have h := user.isUserinfoByte b hb
          exact ⟨⟨h.plain, h.slash⟩, h.space⟩
        · rw [List.mem_singleton.mp hb]
          decide
  · exact hhost b hb

end Url
