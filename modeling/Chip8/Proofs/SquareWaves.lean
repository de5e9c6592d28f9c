import Chip8.Sound.Beeper
import Mathlib.Data.List.Basic

/-!
# Square waves that are repeated

The beeper works out one second of its tone and has it repeated without end. Within the second the
samples have a constant period. Where the second ends and starts again they go on in the same
period only if a whole number of cycles makes up the second, or if nothing can be heard.
-/

namespace Chip8

namespace Wave

section Rows
variable (w : Wave)

theorem length_buffer : w.buffer.length = w.frequency := by
  rw [buffer, List.length_map, List.length_range]

theorem getElem?_buffer {i : Nat} (inside : i < w.frequency) : w.buffer[i]? = some (w.row i) := by
  rw [buffer, List.getElem?_map, List.getElem?_range inside, Option.map_some]

/-- The channels tell two moments apart exactly if their samples do. -/
theorem row_eq_iff {i j : Nat} : w.row i = w.row j ↔ w.sample i = w.sample j := by
  have some : max 1 w.channels ≠ 0 := by omega
  rw [row, row, List.replicate_right_inj some]

theorem sample_of_first_half {i : Nat} (early : i % w.period < w.period / 2) :
    w.sample i = w.high := if_pos early

theorem sample_of_second_half {i : Nat} (late : w.period / 2 ≤ i % w.period) :
    w.sample i = w.low := if_neg (Nat.not_lt.2 late)

theorem sample_congr {i j : Nat} (same : i % w.period = j % w.period) :
    w.sample i = w.sample j := by
  rw [sample, sample, same]

/-- A silent wave has one sample throughout. -/
theorem sample_of_silent (silent : w.high = w.low) (i : Nat) : w.sample i = w.low := by
  rw [sample, silent, ite_self]

end Rows

section Seam
variable {w : Wave}

/-- A second of whole cycles goes on in its period when it starts again. -/
theorem sample_around_of_dvd (whole : w.period ∣ w.frequency) (i : Nat) :
    w.sample ((i + w.period) % w.frequency) = w.sample i := by
  apply sample_congr
  rw [Nat.mod_mod_of_dvd _ whole, Nat.add_mod_right]

/-- A second that ends in the low half of a cycle is low one cycle before its end, and starts
high. -/
theorem breaks_of_low_end (cycle : 2 ≤ w.period) (fits : w.period ≤ w.frequency)
    (low : w.period / 2 ≤ w.frequency % w.period) (heard : w.high ≠ w.low) :
    ∃ i < w.frequency, w.sample ((i + w.period) % w.frequency) ≠ w.sample i := by
  refine ⟨w.frequency - w.period, by omega, ?_⟩
  have start : (w.frequency - w.period + w.period) % w.frequency = 0 := by
    rw [Nat.sub_add_cancel fits, Nat.mod_self]
  have early : 0 % w.period < w.period / 2 := by
    rw [Nat.zero_mod]
    omega
  have late : w.period / 2 ≤ (w.frequency - w.period) % w.period := by
    rw [← Nat.mod_eq_sub_mod fits]
    exact low
  rw [start, w.sample_of_first_half early, w.sample_of_second_half late]
  exact heard

/-- A second that ends in the high half of a cycle turns low for the last time too early: one cycle
later, in the next second, the samples are still high. -/
theorem breaks_of_high_end (fits : w.period ≤ w.frequency) (begun : 0 < w.frequency % w.period)
    (high : w.frequency % w.period < w.period / 2) (heard : w.high ≠ w.low) :
    ∃ i < w.frequency, w.sample ((i + w.period) % w.frequency) ≠ w.sample i := by
  let k := w.period / 2 - w.frequency % w.period
  refine ⟨w.frequency - w.period + k, by omega, ?_⟩
  have start : (w.frequency - w.period + k + w.period) % w.frequency = k := by
    have behind : w.frequency - w.period + k + w.period = k + w.frequency := by omega
    rw [behind, Nat.add_mod_right, Nat.mod_eq_of_lt (by omega)]
  have early : k % w.period < w.period / 2 := by
    rw [Nat.mod_eq_of_lt (by omega)]
    omega
  have turn : (w.frequency - w.period + k) % w.period = w.period / 2 := by
    have cycles := Nat.div_add_mod w.frequency w.period
    have one : 1 ≤ w.frequency / w.period := (Nat.one_le_div_iff (by omega)).2 fits
    obtain ⟨n, more⟩ := Nat.exists_eq_add_of_le' one
    rw [more, Nat.mul_succ] at cycles
    have place : w.frequency - w.period + k = w.period / 2 + w.period * n := by omega
    rw [place, Nat.add_mul_mod_self_left, Nat.mod_eq_of_lt (by omega)]
  rw [start, w.sample_of_first_half early, w.sample_of_second_half (Nat.le_of_eq turn.symm)]
  exact heard

/-- A second goes on in its period when it starts again exactly if it is made of whole cycles or
silent. -/
theorem loops_iff (cycle : 2 ≤ w.period) (fits : w.period ≤ w.frequency) :
    (∀ i < w.frequency, w.sample ((i + w.period) % w.frequency) = w.sample i) ↔
      w.period ∣ w.frequency ∨ w.high = w.low := by
  constructor
  · intro even
    by_contra uneven
    obtain ⟨broken, heard⟩ := not_or.1 uneven
    have begun : 0 < w.frequency % w.period := by
      apply Nat.pos_of_ne_zero
      exact fun none => broken (Nat.dvd_of_mod_eq_zero none)
    obtain ⟨i, inside, differ⟩ :
        ∃ i < w.frequency, w.sample ((i + w.period) % w.frequency) ≠ w.sample i := by
      rcases Nat.lt_or_ge (w.frequency % w.period) (w.period / 2) with high | low
      · exact breaks_of_high_end fits begun high heard
      · exact breaks_of_low_end cycle fits low heard
    exact differ (even i inside)
  · rintro (whole | silent) i -
    · exact sample_around_of_dvd whole i
    · rw [w.sample_of_silent silent, w.sample_of_silent silent]

end Seam

end Wave

namespace Beeper
variable {frequency channels tone : Int} {volume : Number}

/-- Every volume from zero to one can be worked with. -/
theorem isUsable_of_isShare (share : volume.isShare = true) : Wave.isUsable volume = true := by
  cases volume with
  | float f => rfl
  | int i =>
      have range : 0 ≤ i ∧ i ≤ 1 := of_decide_eq_true share
      exact decide_eq_true (by omega)

/-- The wave of a tone on a device. -/
def waveOf (frequency channels tone : Int) (volume : Number) : Wave where
  frequency := frequency.toNat
  channels := channels.toNat
  period := Wave.periodOf frequency tone
  high := Wave.level volume true
  low := Wave.level volume false

theorem make_eq (positive : 1 ≤ tone) (share : volume.isShare = true) :
    make (.ready frequency channels) tone volume =
      .ok (⟨false, some (waveOf frequency channels tone volume)⟩, []) := by
  have sounds : tone ≠ 0 := by omega
  rw [make, Wave.make, if_neg sounds, isUsable_of_isShare share]
  rfl

theorem row_waveOf (voices : 1 ≤ channels) (i : Nat) :
    let w := waveOf frequency channels tone volume
    w.row i = List.replicate channels.toNat
      (Wave.level volume (decide (i % w.period < w.period / 2))) := by
  intro w
  have some : 1 ≤ channels.toNat := by omega
  have all : max 1 w.channels = channels.toNat := Nat.max_eq_right some
  rw [Wave.row, all]
  by_cases early : i % w.period < w.period / 2
  · rw [w.sample_of_first_half early, decide_eq_true early]
    rfl
  · rw [w.sample_of_second_half (Nat.not_lt.1 early), decide_eq_false early]
    rfl

/-- A device with a frequency gets a second of a square wave in all of its channels. Repeated, it
keeps its period exactly if a whole number of cycles makes up the second or both halves of a cycle
have one sample. -/
theorem buffer_loops_iff (fast : 2 ≤ frequency) (voices : 1 ≤ channels) (positive : 1 ≤ tone)
    (share : volume.isShare = true) :
    let f := frequency.toNat
    let p := (max 2 (frequency / tone)).toNat
    ∃ w, make (.ready frequency channels) tone volume = .ok (⟨false, some w⟩, []) ∧
      w.buffer.length = f ∧
      (∀ i < f, w.buffer[i]? =
        some (List.replicate channels.toNat (Wave.level volume (decide (i % p < p / 2))))) ∧
      ((∀ i < f, w.buffer[(i + p) % f]? = w.buffer[i]?) ↔
        p ∣ f ∨ Wave.level volume true = Wave.level volume false) := by
  intro f p
  let w := waveOf frequency channels tone volume
  have period : w.period = p := by
    have floor : frequency.fdiv tone = frequency / tone :=
      Int.fdiv_eq_ediv_of_nonneg frequency (by omega)
    exact congrArg (fun q => (max 2 q).toNat) floor
  have fits : p ≤ f := by
    have short : frequency / tone ≤ frequency := Int.ediv_le_self tone (by omega)
    omega
  refine ⟨w, make_eq positive share, w.length_buffer, ?_, ?_⟩
  · intro i inside
    rw [w.getElem?_buffer inside, row_waveOf voices, period]
  · rw [← period] at fits ⊢
    have cycle : 2 ≤ w.period := by omega
    apply Iff.trans _ (w.loops_iff cycle fits)
    apply forall_congr'
    intro i
    apply imp_congr_right
    intro inside
    have around : (i + w.period) % f < f := Nat.mod_lt _ (by omega)
    rw [w.getElem?_buffer inside, w.getElem?_buffer around, Option.some_inj, w.row_eq_iff]
    rfl

/-- The tone of the default settings, in two channels: a second has four hundred and forty-one
cycles. -/
theorem buffer_loops_of_default :
    let volume := Settings.default.volume
    ∃ w, make (.ready 44100 2) Settings.default.toneHz volume = .ok (⟨false, some w⟩, []) ∧
      w.buffer[0]? = some [8191, 8191] ∧ w.buffer[50]? = some [-8191, -8191] ∧
      ∀ i < 44100, w.buffer[(i + 100) % 44100]? = w.buffer[i]? := by
  intro volume
  have share : volume.isShare = true := by decide +kernel
  have levels : Wave.level volume true = 8191 ∧ Wave.level volume false = -8191 := by
    decide +kernel
  have fast : (2 : Int) ≤ 44100 := by decide
  have voices : (1 : Int) ≤ 2 := by decide
  have positive : 1 ≤ Settings.default.toneHz := by decide
  obtain ⟨w, made, -, shape, loops⟩ := buffer_loops_iff fast voices positive share
  refine ⟨w, made, ?_, ?_, loops.2 (.inl (by decide))⟩
  · rw [shape 0 (by decide), ← levels.1]
    rfl
  · rw [shape 50 (by decide), ← levels.2]
    rfl

/-- A tone of five hundred cycles stops within a cycle when its second is over. A cycle has
eighty-eight samples, but so many samples after a low one the wave, started again, is high. -/
theorem high_tone_breaks_off :
    ∃ w, make (.ready 44100 1) 500 Settings.default.volume = .ok (⟨false, some w⟩, []) ∧
      w.period = 88 ∧ (44044 + 88) % 44100 = 32 ∧
      w.buffer[44044]? = some [-8191] ∧ w.buffer[32]? = some [8191] := by
  let w := waveOf 44100 1 500 Settings.default.volume
  have early : w.row 32 = [8191] := by decide +kernel
  have late : w.row 44044 = [-8191] := by decide +kernel
  refine ⟨w, make_eq (by decide) (by decide +kernel), by decide, rfl, ?_, ?_⟩
  · rw [w.getElem?_buffer (by decide), late]
  · rw [w.getElem?_buffer (by decide), early]

end Beeper

end Chip8
