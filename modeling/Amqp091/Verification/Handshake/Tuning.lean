import Amqp091.Algorithm.OpenTune
import Amqp091.Verification.Content.FrameSize

/-! # What tune-ok reports

The client works with a frame size and a heartbeat of 64 bits and reports them in fields
of 32 and of 16 bits. A proposal of the server keeps its limit within the field; when the
server leaves the choice to the client the configured value is reported without its high
bits. -/

namespace Amqp091

variable {config : Config} {tune : ConnectionTune}

/-! ## Machine integers -/

theorem toNat_toUInt64 {x : Int64} (h : 0 ≤ x.toInt) : x.toUInt64.toNat = x.toInt.toNat := by
  have hcond := BitVec.toInt_eq_toNat_cond x.toBitVec
  have hlt := x.toBitVec.isLt
  change x.toInt = _ at hcond
  change x.toBitVec.toNat = _
  split at hcond <;> omega

theorem toInt_toUInt64_toInt64 (x : UInt16) : x.toUInt64.toInt64.toInt = x.toNat := by
  have hlt := x.toNat_lt
  have heq : x.toUInt64.toInt64 = Int64.ofNat x.toNat := by
    apply Int64.toBitVec_inj.mp
    apply BitVec.eq_of_toNat_eq
    simp
  rw [heq]
  exact Int64.toInt_ofNat_of_lt (by omega)

theorem toInt_second : second.toInt = 10 ^ 9 := rfl

/-- A whole number of seconds, rounded down. -/
theorem toInt_div_second {d : Int64} (h : 0 ≤ d.toInt) :
    (d / second).toInt = d.toInt / 10 ^ 9 := by
  have hne : d ≠ Int64.minValue := by
    rintro rfl
    exact absurd h (by decide)
  rw [Int64.toInt_div_of_ne_left _ _ hne, toInt_second, Int.tdiv_eq_ediv_of_nonneg h]

theorem toInt_second_mul {n : Int64} (h : 0 ≤ n.toInt) (hlt : n.toInt * 10 ^ 9 < 2 ^ 63) :
    (second * n).toInt = n.toInt * 10 ^ 9 := by
  rw [Int64.toInt_mul, toInt_second, Int.bmod_eq_of_le (by omega) (by omega), Int.mul_comm]

/-- What a limit of 64 bits becomes in a narrower field is the same number exactly when it
fits. -/
theorem toNat_toUInt32_eq {x : Int64} (h : 0 ≤ x.toInt) :
    (x.toUInt64.toUInt32.toNat : ℤ) = x.toInt ↔ x.toInt < 2 ^ 32 := by
  rw [UInt64.toNat_toUInt32, toNat_toUInt64 h]
  omega

theorem toNat_toUInt16_eq {x : Int64} (h : 0 ≤ x.toInt) :
    (x.toUInt64.toUInt16.toNat : ℤ) = x.toInt ↔ x.toInt < 2 ^ 16 := by
  rw [UInt64.toNat_toUInt16, toNat_toUInt64 h]
  omega

/-! ## The three limits -/

/-- The smaller of two limits, where zero is no limit. -/
def smallerLimit (client server : ℤ) : ℤ :=
  if client = 0 ∨ server = 0 then max client server else min client server

variable {client server bound : ℤ}

theorem smallerLimit_nonneg (hclient : 0 ≤ client) (hserver : 0 ≤ server) :
    0 ≤ smallerLimit client server := by
  rw [smallerLimit]
  split <;> omega

/-- The client's limit counts alone when the server has none. -/
theorem smallerLimit_lt_iff (hserver : 0 ≤ server) (hbound : server < bound) :
    smallerLimit client server < bound ↔ server ≠ 0 ∨ client < bound := by
  rw [smallerLimit]
  split <;> omega

theorem toInt_tunedFrameSize (configFrameSize : Int64) (frameMax : UInt32) :
    (tunedFrameSize configFrameSize frameMax).toInt =
      smallerLimit configFrameSize.toInt frameMax.toNat := by
  rw [tunedFrameSize, toInt_pick, toInt_frameMax, smallerLimit]

theorem toInt_tunedHeartbeat {configHeartbeat : Int64} (h : 0 ≤ configHeartbeat.toInt)
    (heartbeat : UInt16) :
    (tunedHeartbeat configHeartbeat heartbeat).toInt =
      smallerLimit (configHeartbeat.toInt / 10 ^ 9) heartbeat.toNat * 10 ^ 9 := by
  have hpick : (pick (configHeartbeat / second) heartbeat.toUInt64.toInt64).toInt =
      smallerLimit (configHeartbeat.toInt / 10 ^ 9) heartbeat.toNat := by
    rw [toInt_pick, toInt_toUInt64_toInt64, toInt_div_second h, smallerLimit]
  have hlt := configHeartbeat.toInt_lt
  have hserver := heartbeat.toNat_lt
  have hnonneg : 0 ≤ smallerLimit (configHeartbeat.toInt / 10 ^ 9) heartbeat.toNat :=
    smallerLimit_nonneg (by omega) (by omega)
  rw [tunedHeartbeat, toInt_second_mul (hpick ▸ hnonneg), hpick]
  rw [hpick, smallerLimit]
  split <;> omega

theorem tunedChannelMax_le (configChannelMax : UInt16) {channelMax : UInt16}
    (h : channelMax ≠ 0) : tunedChannelMax configChannelMax channelMax ≤ channelMax := by
  have hzero : ∀ x : UInt16, x = 0 ↔ x.toNat = 0 := fun x => by rw [← UInt16.toNat_inj]; rfl
  have hmax : maxChannelMax.toNat = 65535 := rfl
  have hpicked : pickUInt16 configChannelMax channelMax ≠ 0 ∧
      (pickUInt16 configChannelMax channelMax).toNat ≤ channelMax.toNat := by
    rw [Ne, hzero] at h ⊢
    simp only [pickUInt16, minUInt16, maxUInt16, hzero, gt_iff_lt, UInt16.lt_iff_toNat_lt]
    split <;> split <;> omega
  have hlt := channelMax.toNat_lt
  simp only [tunedChannelMax, if_neg hpicked.1, minUInt16, UInt16.lt_iff_toNat_lt,
    UInt16.le_iff_toNat_le]
  split <;> omega

/-! ## Told and applied -/

/-- Every value in tune-ok is the limit that the client applies itself. -/
structure Tuned.ToldAsApplied (t : Tuned) : Prop where
  channelMax : (t.tuneOk.channelMax.toNat : ℤ) = t.allocator.high.toInt
  frameMax : (t.tuneOk.frameMax.toNat : ℤ) = t.frameSize.toInt
  heartbeat : (t.tuneOk.heartbeat.toNat : ℤ) * 10 ^ 9 = t.heartbeat.toInt

/-- No value in tune-ok is above what the server proposes, if it proposes one. -/
structure ConnectionTuneOk.Within (ok : ConnectionTuneOk) (tune : ConnectionTune) : Prop where
  channelMax : tune.channelMax ≠ 0 → ok.channelMax ≤ tune.channelMax
  frameMax : tune.frameMax ≠ 0 → ok.frameMax ≤ tune.frameMax
  heartbeat : tune.heartbeat ≠ 0 → ok.heartbeat ≤ tune.heartbeat

theorem channelMax_told (config : Config) (tune : ConnectionTune) :
    ((openTune config tune).tuneOk.channelMax.toNat : ℤ) =
      (openTune config tune).allocator.high.toInt :=
  (toInt_toUInt64_toInt64 _).symm

theorem frameMax_told_iff (hframe : 0 ≤ config.frameSize) :
    ((openTune config tune).tuneOk.frameMax.toNat : ℤ) = (openTune config tune).frameSize.toInt ↔
      tune.frameMax ≠ 0 ∨ config.frameSize < 2 ^ 32 := by
  have hlt := tune.frameMax.toNat_lt
  have hbound : (2 ^ 32 : Int64).toInt = 2 ^ 32 := rfl
  rw [Int64.le_iff_toInt_le, Int64.toInt_zero] at hframe
  have hsize := toInt_tunedFrameSize config.frameSize tune.frameMax
  have hnonneg : 0 ≤ (openTune config tune).frameSize.toInt := by
    rw [openTune, hsize]
    exact smallerLimit_nonneg hframe (by omega)
  rw [Tuned.tuneOk, toNat_toUInt32_eq hnonneg, openTune, hsize,
    smallerLimit_lt_iff (by omega) (by omega), Int64.lt_iff_toInt_lt, hbound, Ne, Ne,
    ← UInt32.toNat_inj]
  simp

/-- The interval in seconds, as it is converted for the field. -/
theorem toInt_heartbeat_div (hheartbeat : 0 ≤ config.heartbeat) (tune : ConnectionTune) :
    ((openTune config tune).heartbeat / second).toInt =
      smallerLimit (config.heartbeat.toInt / 10 ^ 9) tune.heartbeat.toNat ∧
    0 ≤ ((openTune config tune).heartbeat / second).toInt := by
  rw [Int64.le_iff_toInt_le, Int64.toInt_zero] at hheartbeat
  have htuned := toInt_tunedHeartbeat hheartbeat tune.heartbeat
  have hnonneg : 0 ≤ smallerLimit (config.heartbeat.toInt / 10 ^ 9) tune.heartbeat.toNat :=
    smallerLimit_nonneg (by omega) (by omega)
  have hdiv : ((openTune config tune).heartbeat / second).toInt =
      smallerLimit (config.heartbeat.toInt / 10 ^ 9) tune.heartbeat.toNat := by
    change (tunedHeartbeat config.heartbeat tune.heartbeat / second).toInt = _
    rw [toInt_div_second (by omega), htuned]
    omega
  exact ⟨hdiv, hdiv ▸ hnonneg⟩

theorem heartbeat_told_iff (hheartbeat : 0 ≤ config.heartbeat) :
    ((openTune config tune).tuneOk.heartbeat.toNat : ℤ) * 10 ^ 9 =
        (openTune config tune).heartbeat.toInt ↔
      tune.heartbeat ≠ 0 ∨ config.heartbeat / second < 2 ^ 16 := by
  have hlt := tune.heartbeat.toNat_lt
  have hbound : (2 ^ 16 : Int64).toInt = 2 ^ 16 := rfl
  obtain ⟨hdiv, hnonneg⟩ := toInt_heartbeat_div hheartbeat tune
  rw [Int64.le_iff_toInt_le, Int64.toInt_zero] at hheartbeat
  have hwhole : (openTune config tune).heartbeat.toInt =
      ((openTune config tune).heartbeat / second).toInt * 10 ^ 9 := by
    rw [hdiv]
    exact toInt_tunedHeartbeat hheartbeat tune.heartbeat
  have hcancel : ((openTune config tune).tuneOk.heartbeat.toNat : ℤ) * 10 ^ 9 =
      (openTune config tune).heartbeat.toInt ↔
        ((openTune config tune).tuneOk.heartbeat.toNat : ℤ) =
          ((openTune config tune).heartbeat / second).toInt := by
    omega
  rw [hcancel, Tuned.tuneOk, toNat_toUInt16_eq hnonneg, hdiv,
    smallerLimit_lt_iff (by omega) (by omega), Int64.lt_iff_toInt_lt, hbound,
    toInt_div_second hheartbeat, Ne, Ne, ← UInt16.toNat_inj]
  simp

theorem frameMax_within (hframe : 0 ≤ config.frameSize) (hmax : tune.frameMax ≠ 0) :
    (openTune config tune).tuneOk.frameMax ≤ tune.frameMax := by
  have htold := (frameMax_told_iff hframe).mpr (.inl hmax)
  have hlt : (openTune config tune).frameSize.toInt < tune.frameMax.toNat + 1 := by
    rw [openTune, toInt_tunedFrameSize, smallerLimit_lt_iff (by omega) (by omega)]
    left
    rw [Ne, ← UInt32.toNat_inj] at hmax
    simpa using hmax
  rw [UInt32.le_iff_toNat_le]
  omega

theorem heartbeat_within (hheartbeat : 0 ≤ config.heartbeat) (hzero : tune.heartbeat ≠ 0) :
    (openTune config tune).tuneOk.heartbeat ≤ tune.heartbeat := by
  obtain ⟨hdiv, -⟩ := toInt_heartbeat_div hheartbeat tune
  have htold := (heartbeat_told_iff hheartbeat).mpr (.inl hzero)
  rw [Int64.le_iff_toInt_le, Int64.toInt_zero] at hheartbeat
  have hwhole : (openTune config tune).heartbeat.toInt =
      smallerLimit (config.heartbeat.toInt / 10 ^ 9) tune.heartbeat.toNat * 10 ^ 9 :=
    toInt_tunedHeartbeat hheartbeat tune.heartbeat
  have hlt : smallerLimit (config.heartbeat.toInt / 10 ^ 9) tune.heartbeat.toNat <
      tune.heartbeat.toNat + 1 := by
    rw [smallerLimit_lt_iff (by omega) (by omega)]
    left
    rw [Ne, ← UInt16.toNat_inj] at hzero
    simpa using hzero
  rw [UInt16.le_iff_toNat_le]
  omega

/-- The client tells the server what it applies, and stays within the proposals, exactly
when each limit of its own fits the field wherever the server proposes none. -/
theorem tuneOk_toldAsApplied_iff (config : Config) (tune : ConnectionTune)
    (hframe : 0 ≤ config.frameSize) (hheartbeat : 0 ≤ config.heartbeat) :
    (openTune config tune).ToldAsApplied ∧ (openTune config tune).tuneOk.Within tune ↔
      (tune.frameMax ≠ 0 ∨ config.frameSize < 2 ^ 32) ∧
      (tune.heartbeat ≠ 0 ∨ config.heartbeat / second < 2 ^ 16) := by
  constructor
  · rintro ⟨⟨-, hsize, hbeat⟩, -⟩
    exact ⟨(frameMax_told_iff hframe).mp hsize, (heartbeat_told_iff hheartbeat).mp hbeat⟩
  · rintro ⟨hsize, hbeat⟩
    exact ⟨⟨channelMax_told config tune, (frameMax_told_iff hframe).mpr hsize,
        (heartbeat_told_iff hheartbeat).mpr hbeat⟩,
      ⟨tunedChannelMax_le config.channelMax, frameMax_within hframe,
        heartbeat_within hheartbeat⟩⟩

/-- A configuration with all three limits, and a server that lowers two of them. -/
theorem tuneOk_toldAsApplied_of_proposals :
    (openTune { channelMax := 10, frameSize := 2 ^ 32, heartbeat := 30 * second }
        ⟨5, 131072, 60⟩).ToldAsApplied ∧
      (openTune { channelMax := 10, frameSize := 2 ^ 32, heartbeat := 30 * second }
        ⟨5, 131072, 60⟩).tuneOk.Within ⟨5, 131072, 60⟩ :=
  (tuneOk_toldAsApplied_iff _ _ (by decide) (by decide)).mpr (by decide)

/-- Without a proposal of the server a frame size of four gigabytes is reported as zero,
which means no limit, and a heartbeat of 65536 seconds as none. -/
theorem tuneOk_not_toldAsApplied :
    (openTune { frameSize := 2 ^ 32, heartbeat := 65536 * second } ⟨0, 0, 0⟩).tuneOk =
        ⟨2047, 0, 0⟩ ∧
      ¬ (openTune { frameSize := 2 ^ 32, heartbeat := 65536 * second }
        ⟨0, 0, 0⟩).ToldAsApplied := by
  refine ⟨by decide, fun h => ?_⟩
  exact absurd h.frameMax (by decide)

end Amqp091
