import LibOsdp.Error
import Mathlib.Tactic.Ring
import Mathlib.Tactic.Linarith

/-!
# Durations and their counts

LibOSDP carries every time as a count of a unit in a byte or a word. `commands.rs` converts
between these and `core::time::Duration` with `to_count` and `from_count`; the two are
translated here over the standard library's own representation of a duration, with its
checked arithmetic.
-/

set_option autoImplicit false

namespace LibOsdp

open Base

/-- `u64::checked_mul`. -/
def checkedMul (a b : UInt64) : Option UInt64 :=
  if a.toNat * b.toNat < 2 ^ 64 then some (a * b) else none

/-- `u64::checked_add`. -/
def checkedAdd (a b : UInt64) : Option UInt64 :=
  if a.toNat + b.toNat < 2 ^ 64 then some (a + b) else none

theorem checkedMul_eq_some {a b c : UInt64} :
    checkedMul a b = some c ↔ c.toNat = a.toNat * b.toNat := by
  unfold checkedMul
  split <;> rename_i h
  · rw [Option.some.injEq, ← UInt64.toNat_inj, UInt64.toNat_mul, Nat.mod_eq_of_lt h, eq_comm]
  · have := c.toNat_lt
    simp only [reduceCtorEq, false_iff]
    omega

theorem checkedAdd_eq_some {a b c : UInt64} :
    checkedAdd a b = some c ↔ c.toNat = a.toNat + b.toNat := by
  unfold checkedAdd
  split <;> rename_i h
  · rw [Option.some.injEq, ← UInt64.toNat_inj, UInt64.toNat_add, Nat.mod_eq_of_lt h, eq_comm]
  · have := c.toNat_lt
    simp only [reduceCtorEq, false_iff]
    omega

/-- `core::time::Duration`: seconds, and nanoseconds below one second. -/
structure Duration where
  secs : UInt64
  nanos : UInt32
  nanos_lt : nanos.toNat < 1000000000
deriving DecidableEq, Repr

namespace Duration

/-- `Duration::ZERO`. -/
def ZERO : Duration := ⟨0, 0, by decide⟩

instance : Inhabited Duration := ⟨ZERO⟩

/-- `Duration::from_secs`. -/
def fromSecs (secs : UInt64) : Duration := ⟨secs, 0, by decide⟩

/-- `Duration::from_millis`. -/
def fromMillis (millis : UInt64) : Duration where
  secs := millis / 1000
  nanos := (millis % 1000).toUInt32 * 1000000
  nanos_lt := by
    have h : (millis % 1000).toUInt32.toNat < 1000 := by
      simp only [UInt64.toNat_toUInt32, UInt64.toNat_mod, UInt64.reduceToNat]
      omega
    simp only [UInt32.toNat_mul, UInt32.reduceToNat]
    rw [Nat.mod_eq_of_lt (by omega)]
    omega

/-- The whole duration in nanoseconds. -/
def toNanos (d : Duration) : Nat := d.secs.toNat * 1000000000 + d.nanos.toNat

/-- `Duration::checked_mul`, the multiplication behind `Duration * u32`. The products of the
    two nanosecond parts cannot overflow; the seconds can. -/
def checkedMul (d : Duration) (rhs : UInt32) : Option Duration :=
  let totalNanos := d.nanos.toUInt64 * rhs.toUInt64
  let extraSecs := totalNanos / 1000000000
  let nanos := (totalNanos % 1000000000).toUInt32
  ((LibOsdp.checkedMul d.secs rhs.toUInt64).bind fun s => checkedAdd s extraSecs).map fun secs =>
    ⟨secs, nanos, by
      simp only [nanos, UInt64.toNat_toUInt32, UInt64.toNat_mod, UInt64.reduceToNat]
      omega⟩

theorem checkedMul_eq_some {d r : Duration} {rhs : UInt32} :
    d.checkedMul rhs = some r ↔ r.toNanos = d.toNanos * rhs.toNat := by
  have hn := d.nanos_lt
  have hr := rhs.toNat_lt
  have htotal : (d.nanos.toUInt64 * rhs.toUInt64).toNat = d.nanos.toNat * rhs.toNat := by
    rw [UInt64.toNat_mul, UInt32.toNat_toUInt64, UInt32.toNat_toUInt64]
    exact Nat.mod_eq_of_lt (by nlinarith)
  obtain ⟨rs, rn, hrn⟩ := r
  simp only [checkedMul, Option.map_eq_some_iff, Option.bind_eq_some_iff, mk.injEq, toNanos,
    LibOsdp.checkedMul_eq_some, checkedAdd_eq_some, ← UInt32.toNat_inj, UInt64.toNat_toUInt32,
    UInt64.toNat_mod, UInt64.toNat_div, UInt64.reduceToNat, htotal, UInt32.toNat_toUInt64]
  have hsplit := Nat.div_add_mod (d.nanos.toNat * rhs.toNat) 1000000000
  have hdist : (d.secs.toNat * 1000000000 + d.nanos.toNat) * rhs.toNat =
      d.secs.toNat * rhs.toNat * 1000000000 + d.nanos.toNat * rhs.toNat := by ring
  rw [hdist]
  constructor
  · rintro ⟨s, ⟨s', hs', hs⟩, rfl, h⟩
    omega
  · intro h
    refine ⟨rs, ⟨UInt64.ofNat (d.secs.toNat * rhs.toNat), ?_, ?_⟩, rfl, by omega⟩
    · have := rs.toNat_lt
      exact UInt64.toNat_ofNat_of_lt' (by rw [UInt64.size]; omega)
    · have := rs.toNat_lt
      rw [UInt64.toNat_ofNat_of_lt' (by rw [UInt64.size]; omega)]
      omega

end Duration

/-- The machine words LibOSDP counts in: `Into<u32>` one way and `TryFrom<u64>` the other. -/
class CountWord (T : Type) where
  toU32 : T → UInt32
  tryFromU64 : UInt64 → Option T
  tryFromU64_eq_some : ∀ {n : UInt64} {t : T}, tryFromU64 n = some t ↔ (toU32 t).toNat = n.toNat

instance : CountWord UInt8 where
  toU32 := UInt8.toUInt32
  tryFromU64 n := if n.toNat < 256 then some n.toUInt8 else none
  tryFromU64_eq_some {n t} := by
    have := t.toNat_lt
    split
    · rw [Option.some.injEq, ← UInt8.toNat_inj, UInt64.toNat_toUInt8, UInt8.toNat_toUInt32]
      omega
    · rw [UInt8.toNat_toUInt32]
      simp only [reduceCtorEq, false_iff]
      omega

instance : CountWord UInt16 where
  toU32 := UInt16.toUInt32
  tryFromU64 n := if n.toNat < 65536 then some n.toUInt16 else none
  tryFromU64_eq_some {n t} := by
    have := t.toNat_lt
    split
    · rw [Option.some.injEq, ← UInt16.toNat_inj, UInt64.toNat_toUInt16, UInt16.toNat_toUInt32]
      omega
    · rw [UInt16.toNat_toUInt32]
      simp only [reduceCtorEq, false_iff]
      omega

/-- The count of a word as a number. -/
abbrev countOf {T : Type} [CountWord T] (t : T) : Nat := (CountWord.toU32 t).toNat

/-- The closure `nanos` of `to_count`. -/
def nanosOf (what : String) (d : Duration) : Res UInt64 :=
  okOr ((checkedMul d.secs 1000000000).bind fun n => checkedAdd n d.nanos.toUInt64)
    (.err (.invalidArgument what))

/-- `to_count`. Rust's `%` panics on a zero divisor. -/
def toCount (T : Type) [CountWord T] (duration unit : Duration) (what : String) : Res T := do
  let nanos ← nanosOf what duration
  let unit ← nanosOf what unit
  if unit = 0 then .error .panic
  else if nanos % unit ≠ 0 then .error (.err (.invalidArgument what))
  else okOr (CountWord.tryFromU64 (nanos / unit)) (.err (.invalidArgument what))

/-- `from_count`: `unit * count.into()`, which panics when the product is no duration. -/
def fromCount {T : Type} [CountWord T] (count : T) (unit : Duration) : Res Duration :=
  okOr (unit.checkedMul (CountWord.toU32 count)) .panic

def TENTH_OF_A_SECOND : Duration := .fromMillis 100
def SECOND : Duration := .fromSecs 1
def MILLISECOND : Duration := .fromMillis 1

@[simp] theorem toNanos_tenth : TENTH_OF_A_SECOND.toNanos = 100000000 := by decide

@[simp] theorem toNanos_millisecond : MILLISECOND.toNanos = 1000000 := by decide

@[simp] theorem toNanos_second : SECOND.toNanos = 1000000000 := by decide

/-- The units in use: nonzero, and at most a second. No count of one overflows. -/
structure Duration.IsUnit (unit : Duration) : Prop where
  pos : 0 < unit.toNanos
  le : unit.toNanos ≤ 1000000000

theorem isUnit_tenth : TENTH_OF_A_SECOND.IsUnit := ⟨by decide, by decide⟩
theorem isUnit_second : SECOND.IsUnit := ⟨by decide, by decide⟩
theorem isUnit_millisecond : MILLISECOND.IsUnit := ⟨by decide, by decide⟩

theorem nanosOf_eq_ok {what : String} {d : Duration} {n : UInt64} :
    nanosOf what d = .ok n ↔ n.toNat = d.toNanos := by
  simp only [nanosOf, okOr_eq_ok, Option.bind_eq_some_iff, checkedMul_eq_some, checkedAdd_eq_some,
    UInt32.toNat_toUInt64, UInt64.reduceToNat, Duration.toNanos]
  constructor
  · rintro ⟨s, hs, hn⟩
    omega
  · intro h
    have := n.toNat_lt
    refine ⟨UInt64.ofNat (d.secs.toNat * 1000000000), ?_, ?_⟩ <;>
      rw [UInt64.toNat_ofNat_of_lt' (by rw [UInt64.size]; omega)]
    exact h

theorem nanosOf_error {what : String} {d : Duration} {f : Fault} (h : nanosOf what d = .error f) :
    f = .err (.invalidArgument what) := by
  unfold nanosOf at h
  generalize (checkedMul d.secs 1000000000).bind _ = o at h
  cases o with
  | none => exact (Except.error.inj h).symm
  | some n => cases h

section Unit

variable {T : Type} [CountWord T] {unit : Duration} {what : String}

theorem Duration.IsUnit.nanosOf (hu : unit.IsUnit) (what : String) :
    ∃ u, LibOsdp.nanosOf what unit = .ok u ∧ u.toNat = unit.toNanos ∧ u ≠ 0 := by
  have hle := hu.le
  have hpos := hu.pos
  have hval : (UInt64.ofNat unit.toNanos).toNat = unit.toNanos :=
    UInt64.toNat_ofNat_of_lt' (by rw [UInt64.size]; omega)
  refine ⟨UInt64.ofNat unit.toNanos, nanosOf_eq_ok.2 hval, hval, ?_⟩
  intro h0
  rw [h0, UInt64.toNat_zero] at hval
  omega

/-- **Counting is exact**: `to_count` gives `n` for `n` units to the nanosecond, and for
    nothing else. -/
theorem toCount_eq_ok (hu : unit.IsUnit) {d : Duration} {n : T} :
    toCount T d unit what = .ok n ↔ d.toNanos = countOf n * unit.toNanos := by
  obtain ⟨u, hnu, hu64, hu0⟩ := hu.nanosOf what
  simp only [toCount, bind_eq_ok, hnu, Except.ok.injEq, exists_eq_left', if_neg hu0, nanosOf_eq_ok]
  constructor
  · rintro ⟨m, hm, h⟩
    split at h
    · cases h
    · rename_i hmod
      rw [okOr_eq_ok, CountWord.tryFromU64_eq_some, UInt64.toNat_div] at h
      have hdvd : m.toNat % u.toNat = 0 := by
        have := congrArg UInt64.toNat (not_not.1 hmod)
        rwa [UInt64.toNat_mod] at this
      rw [countOf, h, ← hm, ← hu64]
      exact (Nat.div_mul_cancel (Nat.dvd_of_mod_eq_zero hdvd)).symm
  · intro h
    have hfit : d.toNanos < UInt64.size := by
      have hn : countOf n < 2 ^ 32 := UInt32.toNat_lt _
      rw [h, UInt64.size]
      nlinarith [hu.le]
    have hm : (UInt64.ofNat d.toNanos).toNat = d.toNanos := UInt64.toNat_ofNat_of_lt' hfit
    have hmod : UInt64.ofNat d.toNanos % u = 0 := by
      rw [← UInt64.toNat_inj, UInt64.toNat_mod, hm, hu64, h, Nat.mul_mod_left, UInt64.toNat_zero]
    refine ⟨_, hm, ?_⟩
    rw [if_neg (not_not.2 hmod), okOr_eq_ok, CountWord.tryFromU64_eq_some, UInt64.toNat_div, hm,
      hu64, h, Nat.mul_div_cancel _ hu.pos]

/-- What is no whole count of the unit in the word is refused as an invalid argument. -/
theorem toCount_decides (hu : unit.IsUnit) (d : Duration) :
    Decides (· = .err (.invalidArgument what)) (∃ n : T, d.toNanos = countOf n * unit.toNanos)
      (toCount T d unit what) := by
  cases h : toCount T d unit what with
  | ok n => exact ⟨n, (toCount_eq_ok hu).1 h⟩
  | error f =>
    refine ⟨fun ⟨n, hn⟩ => ?_, ?_⟩
    · rw [(toCount_eq_ok hu).2 hn] at h
      cases h
    · obtain ⟨u, hnu, -, hu0⟩ := hu.nanosOf what
      simp only [toCount, hnu, ok_bind, if_neg hu0] at h
      cases hd : LibOsdp.nanosOf what d with
      | error e =>
        rw [hd, error_bind] at h
        cases h
        exact nanosOf_error hd
      | ok m =>
        rw [hd, ok_bind] at h
        split at h
        · exact (Except.error.inj h).symm
        · cases ho : CountWord.tryFromU64 (T := T) (m / u) with
          | none => rw [ho] at h; exact (Except.error.inj h).symm
          | some n => rw [ho] at h; cases h

/-- No count of a unit overflows: reading one back always gives a duration. -/
theorem fromCount_eq_ok {n : T} {d : Duration} :
    fromCount n unit = .ok d ↔ d.toNanos = countOf n * unit.toNanos := by
  rw [fromCount, okOr_eq_ok, Duration.checkedMul_eq_some, Nat.mul_comm]

theorem fromCount_ok (hu : unit.IsUnit) (n : T) :
    ∃ d, fromCount n unit = .ok d ∧ d.toNanos = countOf n * unit.toNanos := by
  have hn : countOf n < 2 ^ 32 := UInt32.toNat_lt _
  have hlt : countOf n * unit.toNanos / 1000000000 < 2 ^ 64 := by
    have := hu.le
    rw [Nat.div_lt_iff_lt_mul (by decide)]
    nlinarith
  let d : Duration := {
    secs := UInt64.ofNat (countOf n * unit.toNanos / 1000000000)
    nanos := UInt32.ofNat (countOf n * unit.toNanos % 1000000000)
    nanos_lt := by
      rw [UInt32.toNat_ofNat_of_lt' (by rw [UInt32.size]; omega)]
      omega }
  have hd : d.toNanos = countOf n * unit.toNanos := by
    rw [Duration.toNanos, UInt32.toNat_ofNat_of_lt' (by rw [UInt32.size]; omega),
      UInt64.toNat_ofNat_of_lt' (by rw [UInt64.size]; omega)]
    omega
  exact ⟨d, fromCount_eq_ok.2 hd, hd⟩

/-- **The timer round trip**: a duration that has a count is the duration of that count. -/
theorem fromCount_toCount (hu : unit.IsUnit) {d : Duration} {n : T}
    (h : toCount T d unit what = .ok n) : fromCount n unit = .ok d :=
  fromCount_eq_ok.2 ((toCount_eq_ok hu).1 h)

theorem fromCount_decides {bad : Fault → Prop} (hu : unit.IsUnit) (n : T) :
    Decides bad True (fromCount n unit) := by
  obtain ⟨d, hd, -⟩ := fromCount_ok hu n
  rw [hd]
  exact Decides.ok d

end Unit

/-- A time beside what its field can count of it: the unit and the longest time, both in
    nanoseconds. -/
structure Timing where
  time : Duration
  unit : Nat
  longest : Nat

namespace Timing

/-- A time counted in tenths of a second, in a byte: up to 25.5 s. -/
def tenths8 (time : Duration) : Timing := ⟨time, 100000000, 25500000000⟩

/-- A time counted in tenths of a second, in a word: up to 6553.5 s. -/
def tenths16 (time : Duration) : Timing := ⟨time, 100000000, 6553500000000⟩

/-- A time counted in seconds, in a byte: up to 255 s. -/
def seconds8 (time : Duration) : Timing := ⟨time, 1000000000, 255000000000⟩

/-- A whole multiple of the unit, and not beyond the field. -/
def Fits (t : Timing) : Prop := t.unit ∣ t.time.toNanos ∧ t.time.toNanos ≤ t.longest

instance (t : Timing) : Decidable t.Fits := inferInstanceAs (Decidable (_ ∧ _))

/-- How many units the time is. -/
def count (t : Timing) : Nat := t.time.toNanos / t.unit

theorem fits_zero {unit longest : Nat} : (mk .ZERO unit longest).Fits := by
  have hzero : Duration.ZERO.toNanos = 0 := by decide
  simp [Fits, hzero]

theorem exists_countOf8 {k : Nat} : (∃ n : UInt8, countOf n = k) ↔ k ≤ 255 := by
  constructor
  · rintro ⟨n, rfl⟩
    have := n.toNat_lt
    show n.toUInt32.toNat ≤ 255
    rw [UInt8.toNat_toUInt32]
    omega
  · intro hk
    refine ⟨UInt8.ofNat k, ?_⟩
    show (UInt8.ofNat k).toUInt32.toNat = k
    rw [UInt8.toNat_toUInt32, UInt8.toNat_ofNat_of_lt' (by rw [UInt8.size]; omega)]

theorem exists_countOf16 {k : Nat} : (∃ n : UInt16, countOf n = k) ↔ k ≤ 65535 := by
  constructor
  · rintro ⟨n, rfl⟩
    have := n.toNat_lt
    show n.toUInt32.toNat ≤ 65535
    rw [UInt16.toNat_toUInt32]
    omega
  · intro hk
    refine ⟨UInt16.ofNat k, ?_⟩
    show (UInt16.ofNat k).toUInt32.toNat = k
    rw [UInt16.toNat_toUInt32, UInt16.toNat_ofNat_of_lt' (by rw [UInt16.size]; omega)]

/-- A field of words `T` counts units of `nanos` nanoseconds, up to `longest` in all. -/
structure CountedIn (T : Type) [CountWord T] (unit : Duration) (nanos longest : Nat) : Prop where
  isUnit : unit.IsUnit
  nanos_eq : unit.toNanos = nanos
  words : ∀ k, (∃ n : T, countOf n = k) ↔ k * nanos ≤ longest

theorem countedIn_tenths8 : CountedIn UInt8 TENTH_OF_A_SECOND 100000000 25500000000 where
  isUnit := isUnit_tenth
  nanos_eq := toNanos_tenth
  words k := by
    rw [exists_countOf8]
    omega

theorem countedIn_tenths16 : CountedIn UInt16 TENTH_OF_A_SECOND 100000000 6553500000000 where
  isUnit := isUnit_tenth
  nanos_eq := toNanos_tenth
  words k := by
    rw [exists_countOf16]
    omega

theorem countedIn_seconds8 : CountedIn UInt8 SECOND 1000000000 255000000000 where
  isUnit := isUnit_second
  nanos_eq := toNanos_second
  words k := by
    rw [exists_countOf8]
    omega

/-- The time is the one that a count of `n` stands for, and its field can count it. -/
def Reads (t : Timing) (n : Nat) : Prop := t.Fits ∧ t.count = n

section Counted

variable {T : Type} [CountWord T] {unit d : Duration} {nanos longest : Nat}

/-- **A timing is encoded exactly when it fits.** -/
theorem CountedIn.decides (hc : CountedIn T unit nanos longest) (d : Duration) (what : String) :
    Decides Fault.Refused (Timing.mk d nanos longest).Fits (toCount T d unit what) := by
  refine ((toCount_decides hc.isUnit d).mono ?_).congr ?_
  · rintro e rfl
    exact trivial
  · rw [Fits, hc.nanos_eq]
    constructor
    · rintro ⟨n, hn⟩
      simp only [hn]
      exact ⟨Nat.dvd_mul_left _ _, (hc.words _).1 ⟨n, rfl⟩⟩
    · rintro ⟨⟨k, hk⟩, hle⟩
      simp only [Nat.mul_comm nanos k] at hk
      simp only [hk] at hle
      obtain ⟨n, rfl⟩ := (hc.words k).2 hle
      exact ⟨n, hk⟩

/-- A timing read from a count fits, whatever the count. -/
theorem CountedIn.reads (hc : CountedIn T unit nanos longest) {n : T}
    (h : fromCount n unit = .ok d) : (Timing.mk d nanos longest).Reads (countOf n) := by
  have hd := fromCount_eq_ok.1 h
  rw [hc.nanos_eq] at hd
  have hpos : 0 < nanos := hc.nanos_eq ▸ hc.isUnit.pos
  refine ⟨⟨?_, ?_⟩, ?_⟩
  · show nanos ∣ d.toNanos
    rw [hd]
    exact Nat.dvd_mul_left _ _
  · show d.toNanos ≤ longest
    rw [hd]
    exact (hc.words _).1 ⟨n, rfl⟩
  · show d.toNanos / nanos = countOf n
    rw [hd]
    exact Nat.mul_div_cancel _ hpos

end Counted

theorem tenths8_decides (d : Duration) (what : String) :
    Decides Fault.Refused (tenths8 d).Fits (toCount UInt8 d TENTH_OF_A_SECOND what) :=
  countedIn_tenths8.decides d what

theorem tenths16_decides (d : Duration) (what : String) :
    Decides Fault.Refused (tenths16 d).Fits (toCount UInt16 d TENTH_OF_A_SECOND what) :=
  countedIn_tenths16.decides d what

theorem seconds8_decides (d : Duration) (what : String) :
    Decides Fault.Refused (seconds8 d).Fits (toCount UInt8 d SECOND what) :=
  countedIn_seconds8.decides d what

theorem tenths8_reads {n : UInt8} {d : Duration} (h : fromCount n TENTH_OF_A_SECOND = .ok d) :
    (tenths8 d).Reads (countOf n) :=
  countedIn_tenths8.reads h

theorem tenths16_reads {n : UInt16} {d : Duration} (h : fromCount n TENTH_OF_A_SECOND = .ok d) :
    (tenths16 d).Reads (countOf n) :=
  countedIn_tenths16.reads h

theorem seconds8_reads {n : UInt8} {d : Duration} (h : fromCount n SECOND = .ok d) :
    (seconds8 d).Reads (countOf n) :=
  countedIn_seconds8.reads h

end Timing

/-- A field of words `T`, in any of its counts, reads as a time that counts as the same again. -/
def Recounts (T : Type) [CountWord T] (unit : Duration) : Prop :=
  ∀ (n : T) (what : String), ∃ d, fromCount n unit = .ok d ∧ toCount T d unit what = .ok n

theorem Duration.IsUnit.recounts {unit : Duration} (hu : unit.IsUnit) (T : Type) [CountWord T] :
    Recounts T unit := by
  intro n what
  obtain ⟨d, hd, -⟩ := fromCount_ok hu n
  exact ⟨d, hd, (toCount_eq_ok hu).2 (fromCount_eq_ok.1 hd)⟩

/-- A word `T` of values up to `max` counts a unit of `nanos` nanoseconds exactly: which times
    have a count, what the others get, and `from_count` as the inverse on the times that have
    one. -/
structure CountsExactly (T : Type) [CountWord T] (max : Nat) (unit : Duration) (nanos : Nat) :
    Prop where
  words : ∀ k, (∃ n : T, countOf n = k) ↔ k ≤ max
  words_inj : ∀ m n : T, countOf m = countOf n → m = n
  counts : ∀ (d : Duration) (what : String) (n : T),
    toCount T d unit what = .ok n ↔ d.toNanos = countOf n * nanos
  refuses : ∀ (d : Duration) (what : String), (∀ k ≤ max, d.toNanos ≠ k * nanos) →
    toCount T d unit what = .error (.err (.invalidArgument what))
  total : ∀ n : T, ∃ d, fromCount n unit = .ok d
  inverse : ∀ (d : Duration) (what : String) (n : T),
    fromCount n unit = .ok d ↔ toCount T d unit what = .ok n

theorem Duration.IsUnit.countsExactly {unit : Duration} (hu : unit.IsUnit) {T : Type}
    [CountWord T] {max : Nat} (words : ∀ k, (∃ n : T, countOf n = k) ↔ k ≤ max)
    (words_inj : ∀ m n : T, countOf m = countOf n → m = n) :
    CountsExactly T max unit unit.toNanos where
  words := words
  words_inj := words_inj
  counts d what n := toCount_eq_ok hu
  refuses d what hno := by
    have hd := @toCount_decides T _ unit what hu d
    cases h : toCount T d unit what with
    | ok n =>
      have heq := (toCount_eq_ok hu).1 h
      exact absurd heq (hno _ ((words _).1 ⟨n, rfl⟩))
    | error f =>
      rw [h] at hd
      rw [hd.2]
  total n := by
    obtain ⟨d, hd, -⟩ := fromCount_ok hu n
    exact ⟨d, hd⟩
  inverse d what n := by rw [fromCount_eq_ok, toCount_eq_ok hu]

theorem countOf8_inj (m n : UInt8) (h : countOf m = countOf n) : m = n := by
  have h' : m.toUInt32.toNat = n.toUInt32.toNat := h
  rw [UInt8.toNat_toUInt32, UInt8.toNat_toUInt32] at h'
  exact UInt8.toNat_inj.1 h'

theorem countOf16_inj (m n : UInt16) (h : countOf m = countOf n) : m = n := by
  have h' : m.toUInt32.toNat = n.toUInt32.toNat := h
  rw [UInt16.toNat_toUInt32, UInt16.toNat_toUInt32] at h'
  exact UInt16.toNat_inj.1 h'

/-- **Timing counts are exact**, for every duration, in each unit in use and in both words. -/
theorem timing_counts_exact (unit : Duration) (nanos : Nat)
    (h : (unit, nanos) ∈ [(MILLISECOND, 1000000), (TENTH_OF_A_SECOND, 100000000),
      (SECOND, 1000000000)]) :
    CountsExactly UInt8 255 unit nanos ∧ CountsExactly UInt16 65535 unit nanos := by
  have key : unit.IsUnit ∧ unit.toNanos = nanos := by
    simp only [List.mem_cons, Prod.mk.injEq, List.not_mem_nil, or_false] at h
    obtain ⟨rfl, rfl⟩ | ⟨rfl, rfl⟩ | ⟨rfl, rfl⟩ := h
    · exact ⟨isUnit_millisecond, toNanos_millisecond⟩
    · exact ⟨isUnit_tenth, toNanos_tenth⟩
    · exact ⟨isUnit_second, toNanos_second⟩
  obtain ⟨hu, rfl⟩ := key
  constructor
  · exact hu.countsExactly (fun _ => Timing.exists_countOf8) countOf8_inj
  · exact hu.countsExactly (fun _ => Timing.exists_countOf16) countOf16_inj

theorem timing_counts_exact_millisecond :
    (MILLISECOND, 1000000) ∈ [(MILLISECOND, 1000000), (TENTH_OF_A_SECOND, 100000000),
      (SECOND, 1000000000)] ∧
    toCount UInt16 (.fromSecs 65) MILLISECOND "scan hold time" = .ok 65000 ∧
    toCount UInt16 (.fromSecs 66) MILLISECOND "scan hold time" =
      .error (.err (.invalidArgument "scan hold time")) := by
  have hmem : (MILLISECOND, 1000000) ∈ [(MILLISECOND, 1000000), (TENTH_OF_A_SECOND, 100000000),
      (SECOND, 1000000000)] := by decide
  have hwords := (timing_counts_exact MILLISECOND 1000000 hmem).2
  refine ⟨hmem, (hwords.counts _ _ _).2 (by decide), hwords.refuses _ _ fun k hk => ?_⟩
  have hnanos : (Duration.fromSecs 66).toNanos = 66000000000 := by decide
  rw [hnanos]
  omega

end LibOsdp
