import LibOsdp.Codec.Duration

/-!
# The card presence scan

The cadence of the background scan for smart cards: three times, each counted in milliseconds
in a word. A cadence is only ever sent.
-/

set_option autoImplicit false

namespace LibOsdp

open Base

/-- `osdp_trs_scan_params`. -/
structure OsdpTrsScanParams where
  mode0DwellMs : UInt16 := 0
  mode1DwellMs : UInt16 := 0
  holdMs : UInt16 := 0
deriving DecidableEq, Repr

/-- `trs.rs`: cadence of the background card presence scan. -/
structure TrsScan where
  mode0Dwell : Duration := .ZERO
  mode1Dwell : Duration := .ZERO
  hold : Duration := .ZERO
deriving DecidableEq, Repr

/-- A time counted in milliseconds, in a word: up to 65.535 s. -/
def Timing.millis16 (time : Duration) : Timing := ⟨time, 1000000, 65535000000⟩

theorem Timing.countedIn_millis16 : CountedIn UInt16 MILLISECOND 1000000 65535000000 where
  isUnit := isUnit_millisecond
  nanos_eq := toNanos_millisecond
  words k := by
    rw [exists_countOf16]
    omega

theorem Timing.millis16_decides (d : Duration) (what : String) :
    Decides (· = .err (.invalidArgument what)) (millis16 d).Fits
      (toCount UInt16 d MILLISECOND what) := by
  refine (toCount_decides isUnit_millisecond d).congr ?_
  have hword := (countedIn_millis16.decides d what).ok_iff
  have hcount := (@toCount_decides UInt16 _ MILLISECOND what isUnit_millisecond d).ok_iff
  exact hcount.symm.trans hword

namespace TrsScan

/-- `TryFrom<TrsScan> for osdp_trs_scan_params`. -/
def tryInto (value : TrsScan) : Res OsdpTrsScanParams := do
  let mode0DwellMs ← toCount UInt16 value.mode0Dwell MILLISECOND "scan mode 0 dwell time"
  let mode1DwellMs ← toCount UInt16 value.mode1Dwell MILLISECOND "scan mode 1 dwell time"
  let holdMs ← toCount UInt16 value.hold MILLISECOND "scan hold time"
  return { mode0DwellMs, mode1DwellMs, holdMs }

/-- Every time of the cadence is a whole number of milliseconds up to 65.535 s. -/
structure Fits (value : TrsScan) : Prop where
  mode0Dwell : (Timing.millis16 value.mode0Dwell).Fits
  mode1Dwell : (Timing.millis16 value.mode1Dwell).Fits
  hold : (Timing.millis16 value.hold).Fits

/-- What a refused cadence says: the name of one of its times, and that time does not fit. -/
def Names (value : TrsScan) : Fault → Prop
  | .err (.invalidArgument what) =>
    (what = "scan mode 0 dwell time" ∧ ¬ (Timing.millis16 value.mode0Dwell).Fits) ∨
    (what = "scan mode 1 dwell time" ∧ ¬ (Timing.millis16 value.mode1Dwell).Fits) ∨
    (what = "scan hold time" ∧ ¬ (Timing.millis16 value.hold).Fits)
  | _ => False

/-- A cadence is encoded exactly when its times fit, and otherwise one that does not is named. -/
theorem tryInto_decides (value : TrsScan) : Decides value.Names value.Fits value.tryInto := by
  have named : ∀ (d : Duration) (what : String),
      (¬ (Timing.millis16 d).Fits → value.Names (.err (.invalidArgument what))) →
      Decides value.Names (Timing.millis16 d).Fits (toCount UInt16 d MILLISECOND what) := by
    intro d what hname
    refine (Timing.millis16_decides d what).mono_of_not ?_
    rintro e hno rfl
    exact hname hno
  have hmode0 := named value.mode0Dwell _ fun hno => .inl ⟨rfl, hno⟩
  have hmode1 := named value.mode1Dwell _ fun hno => .inr (.inl ⟨rfl, hno⟩)
  have hhold := named value.hold _ fun hno => .inr (.inr ⟨rfl, hno⟩)
  refine (hmode0.bind fun _ _ => hmode1.bind fun _ _ => hhold.bind_ok).congr ?_
  exact ⟨fun ⟨h0, h1, hh⟩ => ⟨h0, h1, hh⟩, fun h => ⟨h.mode0Dwell, h.mode1Dwell, h.hold⟩⟩

/-- What an encoded cadence holds is what it was. -/
theorem counts_of_tryInto {value : TrsScan} {raw : OsdpTrsScanParams}
    (h : value.tryInto = .ok raw) :
    fromCount raw.mode0DwellMs MILLISECOND = .ok value.mode0Dwell ∧
      fromCount raw.mode1DwellMs MILLISECOND = .ok value.mode1Dwell ∧
      fromCount raw.holdMs MILLISECOND = .ok value.hold := by
  simp only [tryInto, bind_eq_ok, pure_eq_ok, Except.ok.injEq] at h
  obtain ⟨mode0, h0, mode1, h1, hold, hh, rfl⟩ := h
  exact ⟨fromCount_toCount isUnit_millisecond h0, fromCount_toCount isUnit_millisecond h1,
    fromCount_toCount isUnit_millisecond hh⟩

/-- The default cadence leaves every time to LibOSDP. -/
theorem tryInto_default : ({} : TrsScan).tryInto = .ok {} := by decide

end TrsScan

end LibOsdp
