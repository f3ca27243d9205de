import Amqp091.Algorithm.ReadField
import Amqp091.Shared.Fuel

/-! # Computation rules for the field readers

The bound carried by the readers never runs out, so they satisfy the equations of the
unbounded recursion in the source. -/

namespace Amqp091

open ByteCodec Reader

/-! ## Growing bounds -/

theorem readFieldBody_approx {a a' : FieldReader (List Field)} {t t' : FieldReader Table}
    (ha : Approx a a') (ht : Approx t t') : Approx (readFieldBody a t) (readFieldBody a' t') := by
  refine Approx.bind (Approx.refl _) fun typ => ?_
  unfold readFieldSwitch
  split <;> first
    | exact Approx.refl _
    | exact ha.bind fun _ => Approx.refl _
    | exact ht.bind fun _ => Approx.refl _

theorem readEntriesBody_approx {f f' : FieldReader Field} {n n' : Table → FieldReader Table}
    (hf : Approx f f') (hn : ∀ t, Approx (n t) (n' t)) (t : Table) :
    Approx (readEntriesBody f n t) (readEntriesBody f' n' t) := by
  intro bs
  unfold readEntriesBody
  split
  · exact .inr rfl
  · exact (Approx.bind (Approx.refl _) fun key => hf.bind fun v => hn (t.set key v)) bs

theorem readElemsBody_approx {f f' : FieldReader Field}
    {n n' : List Field → FieldReader (List Field)}
    (hf : Approx f f') (hn : ∀ arr, Approx (n arr) (n' arr)) (arr : List Field) :
    Approx (readElemsBody f n arr) (readElemsBody f' n' arr) := by
  refine hf.attempt.bind fun r => ?_
  split
  · exact hn _
  · exact Approx.refl _
  · exact Approx.refl _

/-- Raising the bound by one changes no outcome that was reached without running out. -/
theorem aux_approx_succ (n : ℕ) :
    Approx (readFieldAux n) (readFieldAux (n + 1)) ∧
    Approx (readTableAux n) (readTableAux (n + 1)) ∧
    (∀ t, Approx (readEntriesAux n t) (readEntriesAux (n + 1) t)) ∧
    Approx (readArrayAux n) (readArrayAux (n + 1)) ∧
    (∀ arr, Approx (readElemsAux n arr) (readElemsAux (n + 1) arr)) := by
  induction n with
  | zero =>
      exact ⟨Approx.timeout _, Approx.timeout _, fun _ => Approx.timeout _,
        Approx.timeout _, fun _ => Approx.timeout _⟩
  | succ n ih =>
      obtain ⟨hfield, htable, hentries, harray, helems⟩ := ih
      refine ⟨readFieldBody_approx harray htable, ?_, readEntriesBody_approx hfield hentries,
        ?_, readElemsBody_approx hfield helems⟩
      · exact Approx.bind (Approx.refl _) fun str => (hentries []).onBuffer str
      · exact Approx.bind (Approx.refl _) fun size => (helems []).limited size.toNat

/-! ## The bound suffices -/

theorem within_readShortstr (k : ℕ) : Within k 1 readShortstr :=
  ((within_readUInt8 k).bind fun length _ =>
    (Within.readFull (k - 1) length.toNat).mono (Nat.zero_le _)).mono (by omega)

theorem within_readLongstr (k : ℕ) : Within k 4 readLongstr := by
  refine ((within_readUInt32 k).bind (c := 0) fun length _ => ?_).mono (by omega)
  split
  · exact Within.pure _ _
  · exact (Within.readFull _ _).mono (Nat.zero_le _)

theorem within_readSlice (k : ℕ) (n : Int32) : Within k 0 (readSlice n) := by
  unfold readSlice
  split
  · exact Within.panic _ _
  · exact (Within.readFull _ _).mono (Nat.zero_le _)

theorem within_readFieldBody {k : ℕ} {a : FieldReader (List Field)} {t : FieldReader Table}
    (ha : 1 ≤ k → Within (k - 1) 0 a) (ht : 1 ≤ k → Within (k - 1) 0 t) :
    Within k 1 (readFieldBody a t) := by
  refine (within_readUInt8 k).bind (c := 0) fun typ hk => ?_
  unfold readFieldSwitch
  split
  · exact ((within_readUInt8 _).map _).mono (Nat.zero_le _)
  · exact ((within_readUInt8 _).map _).mono (Nat.zero_le _)
  · exact ((within_readUInt8 _).map _).mono (Nat.zero_le _)
  · exact ((within_readUInt16 _).map _).mono (Nat.zero_le _)
  · exact ((within_readUInt32 _).map _).mono (Nat.zero_le _)
  · exact ((within_readUInt64 _).map _).mono (Nat.zero_le _)
  · exact ((within_readUInt32 _).map _).mono (Nat.zero_le _)
  · exact ((within_readUInt64 _).map _).mono (Nat.zero_le _)
  · refine (Within.map ?_ _).mono (Nat.zero_le 5)
    exact (within_readUInt8 _).bind fun _ _ => (within_readUInt32 _).map _
  · exact ((within_readLongstr _).map _).mono (Nat.zero_le _)
  · exact (ha hk).map _
  · exact (((within_readUInt64 _).map _).map _).mono (Nat.zero_le _)
  · exact (ht hk).map _
  · exact ((within_readUInt32 _).bind fun len _ =>
      (within_readSlice _ _).map _).mono (Nat.zero_le _)
  · exact Within.pure _ _
  · exact Within.throw _ _ _

/-- A long string came out of the input it was read from, behind its length. -/
theorem readLongstr_length {bs str rest : Bytes} (h : readLongstr bs = .ok str rest) :
    str.length + 4 ≤ bs.length := by
  obtain ⟨length, mid, hlen, hbody⟩ := bind_eq_ok.mp h
  rw [readUInt32_eq_ok.mp hlen]
  split at hbody
  · cases hbody
    simp
  · obtain ⟨-, rfl⟩ := readFull_eq_ok.mp hbody
    simp
    omega

theorem within_onBuffer_readLongstr {k : ℕ} {p : FieldReader Table}
    (hp : 4 ≤ k → Within (k - 4) 0 p) :
    Within k 0 (do let str ← readLongstr; onBuffer str p) := by
  intro bs hk
  have hl := within_readLongstr k bs hk
  rw [bind_apply]
  cases h : readLongstr bs with
  | ok str rest =>
      have hstr := readLongstr_length h
      rw [h] at hl
      have hin := hp (by omega) str (by omega)
      rw [Result.andThen_ok]
      unfold onBuffer
      cases hb : p str with
      | ok v _ => exact ⟨hl.1, hl.1.length_le⟩
      | fail e _ => exact hl.1
      | panic => trivial
      | timeout =>
          rw [hb] at hin
          exact hin
  | fail e rest =>
      rw [h] at hl
      exact hl
  | panic => trivial
  | timeout => exact ((within_readLongstr k).ne_timeout hk h).elim

theorem within_readEntriesBody {k : ℕ} {f : FieldReader Field} {n : Table → FieldReader Table}
    (hf : 1 ≤ k → Within (k - 1) 1 f) (hn : 2 ≤ k → ∀ t, Within (k - 1 - 1) 0 (n t))
    (t : Table) : Within k 0 (readEntriesBody f n t) := by
  intro bs hk
  unfold readEntriesBody
  split
  · exact ⟨List.nil_suffix, Nat.zero_le _⟩
  · refine Within.mono (d := 1 + (1 + 0)) ?_ (Nat.zero_le _) bs hk
    refine (within_readShortstr k).bind fun key hk1 => ?_
    exact (hf hk1).bind fun v hk2 => hn (by omega) _

theorem within_readElemsBody {k : ℕ} {f : FieldReader Field}
    {n : List Field → FieldReader (List Field)}
    (hf : Within k 1 f) (hn : 1 ≤ k → ∀ arr, Within (k - 1) 0 (n arr)) (arr : List Field) :
    Within k 0 (readElemsBody f n arr) := by
  intro bs hk
  have hl := hf bs hk
  unfold readElemsBody
  rw [bind_apply]
  unfold attempt
  cases h : f bs with
  | ok v rest =>
      rw [h] at hl
      obtain ⟨hsuf, hlen⟩ := hl
      have hrest := hn (by omega) (arr ++ [v]) rest (by omega)
      simp only [Result.andThen_ok]
      cases hr : n (arr ++ [v]) rest with
      | ok w rest' =>
          rw [hr] at hrest
          exact ⟨hrest.1.trans hsuf, (hrest.1.trans hsuf).length_le⟩
      | fail e rest' =>
          rw [hr] at hrest
          exact hrest.trans hsuf
      | panic => trivial
      | timeout =>
          rw [hr] at hrest
          exact hrest
  | fail e rest =>
      rw [h] at hl
      cases e with
      | eof => exact ⟨hl, List.IsSuffix.length_le hl⟩
      | unexpectedEOF => exact hl
      | other e => exact hl
  | panic => trivial
  | timeout => exact (hf.ne_timeout hk h).elim

/-- Two rounds for each byte suffice. The loops need one round more than the field
reader they call on the same bytes. -/
theorem within_aux (n : ℕ) :
    (∀ k, 2 * k + 1 ≤ n → Within k 1 (readFieldAux n)) ∧
    (∀ k, 2 * k + 1 ≤ n → Within k 0 (readTableAux n)) ∧
    (∀ k t, 2 * k + 2 ≤ n → Within k 0 (readEntriesAux n t)) ∧
    (∀ k, 2 * k + 1 ≤ n → Within k 0 (readArrayAux n)) ∧
    (∀ k arr, 2 * k + 2 ≤ n → Within k 0 (readElemsAux n arr)) := by
  induction n with
  | zero => exact ⟨by omega, by omega, by omega, by omega, by omega⟩
  | succ n ih =>
      obtain ⟨hfield, htable, hentries, harray, helems⟩ := ih
      refine ⟨?_, ?_, ?_, ?_, ?_⟩
      · intro k hk
        exact within_readFieldBody (fun _ => harray _ (by omega)) (fun _ => htable _ (by omega))
      · intro k hk
        exact within_onBuffer_readLongstr fun _ => hentries _ [] (by omega)
      · intro k t hk
        exact within_readEntriesBody (fun _ => hfield _ (by omega))
          (fun _ t => hentries _ t (by omega)) t
      · intro k hk
        refine Within.mono ?_ (Nat.zero_le 4)
        exact (within_readUInt32 k).bind fun size _ => (helems _ [] (by omega)).limited _
      · intro k arr hk
        exact within_readElemsBody (hfield _ (by omega))
          (fun _ arr => helems _ arr (by omega)) arr

theorem readField_ne_timeout (bs : Bytes) : readField bs ≠ .timeout :=
  ((within_aux _).1 bs.length (by unfold fuelFor; omega)).ne_timeout le_rfl

theorem readTable_ne_timeout (bs : Bytes) : readTable bs ≠ .timeout :=
  ((within_aux _).2.1 bs.length (by unfold fuelFor; omega)).ne_timeout le_rfl

theorem readEntries_ne_timeout (t : Table) (bs : Bytes) : readEntries t bs ≠ .timeout :=
  ((within_aux _).2.2.1 bs.length t (by unfold fuelFor; omega)).ne_timeout le_rfl

theorem readArray_ne_timeout (bs : Bytes) : readArray bs ≠ .timeout :=
  ((within_aux _).2.2.2.1 bs.length (by unfold fuelFor; omega)).ne_timeout le_rfl

theorem readElems_ne_timeout (arr : List Field) (bs : Bytes) : readElems arr bs ≠ .timeout :=
  ((within_aux _).2.2.2.2 bs.length arr (by unfold fuelFor; omega)).ne_timeout le_rfl

/-! ## Equations -/

theorem readFieldAux_approx (n : ℕ) : Approx (readFieldAux n) readField :=
  Approx.diagonal (fun n => (aux_approx_succ n).1) readField_ne_timeout n

theorem readTableAux_approx (n : ℕ) : Approx (readTableAux n) readTable :=
  Approx.diagonal (fun n => (aux_approx_succ n).2.1) readTable_ne_timeout n

theorem readEntriesAux_approx (n : ℕ) (t : Table) :
    Approx (readEntriesAux n t) (readEntries t) :=
  Approx.diagonal (p := fun n => readEntriesAux n t) (fun n => (aux_approx_succ n).2.2.1 t)
    (readEntries_ne_timeout t) n

theorem readArrayAux_approx (n : ℕ) : Approx (readArrayAux n) readArray :=
  Approx.diagonal (fun n => (aux_approx_succ n).2.2.2.1) readArray_ne_timeout n

theorem readElemsAux_approx (n : ℕ) (arr : List Field) :
    Approx (readElemsAux n arr) (readElems arr) :=
  Approx.diagonal (p := fun n => readElemsAux n arr) (fun n => (aux_approx_succ n).2.2.2.2 arr)
    (readElems_ne_timeout arr) n

theorem readField_eq : readField = readFieldBody readArray readTable := by
  funext bs
  have h := readFieldBody_approx (readArrayAux_approx (2 * bs.length + 1))
    (readTableAux_approx (2 * bs.length + 1))
  exact h.eq_of_ne (readField_ne_timeout bs)

theorem readTable_eq :
    readTable = (do let str ← readLongstr; onBuffer str (readEntries [])) := by
  funext bs
  have h := Approx.bind (Approx.refl readLongstr) fun str =>
    (readEntriesAux_approx (2 * bs.length + 1) []).onBuffer str
  exact h.eq_of_ne (readTable_ne_timeout bs)

theorem readEntries_eq (t : Table) :
    readEntries t = readEntriesBody readField readEntries t := by
  funext bs
  have h := readEntriesBody_approx (readFieldAux_approx (2 * bs.length + 1))
    (readEntriesAux_approx (2 * bs.length + 1)) t
  exact h.eq_of_ne (readEntries_ne_timeout t bs)

theorem readArray_eq :
    readArray = (do let size ← readUInt32; limited size.toNat (readElems [])) := by
  funext bs
  have h := Approx.bind (Approx.refl (readUInt32 : FieldReader UInt32)) fun size =>
    (readElemsAux_approx (2 * bs.length + 1) []).limited size.toNat
  exact h.eq_of_ne (readArray_ne_timeout bs)

theorem readElems_eq (arr : List Field) :
    readElems arr = readElemsBody readField readElems arr := by
  funext bs
  have h := readElemsBody_approx (readFieldAux_approx (2 * bs.length + 1))
    (readElemsAux_approx (2 * bs.length + 1)) arr
  exact h.eq_of_ne (readElems_ne_timeout arr bs)

theorem readElems_nil (arr : List Field) : readElems arr [] = .ok arr [] := by
  rw [readElems_eq, readElemsBody, bind_apply, readField_eq]
  rfl

/-- A round of the array loop that reads a field goes on behind it. -/
theorem readElems_of_ok {arr : List Field} {v : Field} {bs rest : Bytes}
    (h : readField bs = .ok v rest) : readElems arr bs = readElems (arr ++ [v]) rest := by
  conv_lhs => rw [readElems_eq, readElemsBody, bind_apply, attempt, h]
  rfl

theorem readEntries_nil (t : Table) : readEntries t [] = .ok t [] := by
  rw [readEntries_eq, readEntriesBody, if_pos rfl]

/-- A round of the table loop that reads a key and a field goes on behind them. -/
theorem readEntries_of_ok {t : Table} {key : Bytes} {v : Field} {bs mid rest : Bytes}
    (hkey : readShortstr bs = .ok key mid) (h : readField mid = .ok v rest) (hne : bs ≠ []) :
    readEntries t bs = readEntries (t.set key v) rest := by
  conv_lhs => rw [readEntries_eq, readEntriesBody, if_neg hne, bind_apply, hkey,
    Result.andThen_ok, bind_apply, h, Result.andThen_ok]

/-! ## What is left -/

theorem readField_suffix {bs rest : Bytes} {v : Field} (h : readField bs = .ok v rest) :
    rest <:+ bs ∧ rest.length + 1 ≤ bs.length := by
  have hl := (within_aux (fuelFor bs)).1 bs.length (by unfold fuelFor; omega) bs le_rfl
  rw [readField] at h
  rw [h] at hl
  exact hl

theorem readField_fail_suffix {bs rest : Bytes} {e : ReadError GoError}
    (h : readField bs = .fail e rest) : rest <:+ bs := by
  have hl := (within_aux (fuelFor bs)).1 bs.length (by unfold fuelFor; omega) bs le_rfl
  rw [readField] at h
  rw [h] at hl
  exact hl

theorem readShortstr_suffix {bs key rest : Bytes} (h : readShortstr bs = .ok key rest) :
    rest <:+ bs ∧ rest.length + 1 ≤ bs.length := by
  have hl := within_readShortstr bs.length bs le_rfl
  rw [h] at hl
  exact hl

/-- A round of the table loop that succeeds has read a key and a field. -/
theorem readEntries_cons_ok {t t' : Table} {bs rest : Bytes} (hne : bs ≠ [])
    (h : readEntries t bs = .ok t' rest) :
    ∃ key mid v next, readShortstr bs = .ok key mid ∧ readField mid = .ok v next ∧
      readEntries (t.set key v) next = .ok t' rest := by
  rw [readEntries_eq, readEntriesBody, if_neg hne] at h
  obtain ⟨key, mid, hkey, h⟩ := bind_eq_ok.mp h
  obtain ⟨v, next, hvalue, h⟩ := bind_eq_ok.mp h
  exact ⟨key, mid, v, next, hkey, hvalue, h⟩

end Amqp091
