import LibOsdp.Codec.CommandGrammar

/-!
# What a command encodes

The commands LibOSDP can carry, said without the encoder: a payload fits its buffer, a time is a
whole number of the units its field counts, a date is one, and a PIN length field has a size. The
encoder accepts these and no others, and a struct it builds holds the command's payloads exactly.
-/

set_option autoImplicit false

namespace LibOsdp

open Base Sys

namespace Command

/-- The times a command carries. -/
def timings : Command → List Timing
  | led c => c.timings
  | buzzer c => c.timings
  | text c => c.timings
  | output c => c.timings
  | trs (.enterPin entry) => entry.timings
  | _ => []

/-- The least and the greatest size of a command's payload, in bytes. Only a challenge has to
    have some. -/
def payloadSizes : Command → Nat × Nat
  | text _ => (0, 32)
  | keySet _ => (0, 32)
  | mfg _ => (0, 64)
  | bioMatch _ => (0, 128)
  | genAuth _ => (1, 256)
  | crAuth _ => (1, 256)
  | trs _ => (0, 258)
  | _ => (0, 0)

/-- The commands that LibOSDP can carry. -/
structure Encodable (c : Command) : Prop where
  payloads_fit : ∀ p ∈ c.payloads, c.payloadSizes.1 ≤ p.length ∧ p.length ≤ c.payloadSizes.2
  timings_fit : ∀ t ∈ c.timings, t.Fits
  date_in_range : ∀ d, c = timeDate d → d.InRange
  length_field_sized : ∀ entry field, c = trs (.enterPin entry) → entry.lengthField = some field →
    field.sizeBits ≠ 0

theorem encodable_iff {c : Command} :
    c.Encodable ↔
      (∀ p ∈ c.payloads, c.payloadSizes.1 ≤ p.length ∧ p.length ≤ c.payloadSizes.2) ∧
      (∀ t ∈ c.timings, t.Fits) ∧ (∀ d, c = timeDate d → d.InRange) ∧
      ∀ entry field, c = trs (.enterPin entry) → entry.lengthField = some field →
        field.sizeBits ≠ 0 :=
  ⟨fun h => ⟨h.1, h.2, h.3, h.4⟩, fun h => ⟨h.1, h.2.1, h.2.2.1, h.2.2.2⟩⟩

/-- The encoder, command by command: each codec decides its own part of the domain. -/
theorem tryInto_decides (c : Command) : Decides Fault.Refused c.Encodable c.tryInto := by
  have domain := @encodable_iff c
  cases c with
  | led c =>
    apply c.tryInto_decides.bind_ok.congr
    simp [domain, payloads, timings]
  | buzzer c =>
    apply c.tryInto_decides.bind_ok.congr
    simp [domain, payloads, timings]
  | text c =>
    apply c.tryInto_decides.bind_ok.congr
    simp [domain, payloads, timings, payloadSizes, and_comm]
  | output c =>
    apply c.tryInto_decides.bind_ok.congr
    simp [domain, payloads, timings]
  | comSet c => exact (Decides.ok _).congr (by simp [domain, payloads, timings])
  | comSetDone c => exact (Decides.ok _).congr (by simp [domain, payloads, timings])
  | keySet c =>
    apply c.tryInto_decides.bind_ok.congr
    simp [domain, payloads, timings, payloadSizes]
  | mfg c =>
    apply c.tryInto_decides.bind_ok.congr
    simp [domain, payloads, timings, payloadSizes]
  | fileTx c => exact (Decides.ok _).congr (by simp [domain, payloads, timings])
  | status c => exact (Decides.ok _).congr (by simp [domain, payloads, timings])
  | bioRead c => exact (Decides.ok _).congr (by simp [domain, payloads, timings])
  | bioMatch c =>
    apply c.tryInto_decides.bind_ok.congr
    simp [domain, payloads, timings, payloadSizes]
  | timeDate c =>
    apply c.tryInto_decides.bind_ok.congr
    simp [domain, payloads, timings]
  | pivData c => exact (Decides.ok _).congr (by simp [domain, payloads, timings])
  | genAuth c =>
    apply c.tryInto_decides.bind_ok.congr
    simp [domain, payloads, timings, payloadSizes]
  | crAuth c =>
    apply c.tryInto_decides.bind_ok.congr
    simp [domain, payloads, timings, payloadSizes]
  | trs c =>
    cases c with
    | start => exact (Decides.ok _).congr (by simp [domain, payloads, timings])
    | stop => exact (Decides.ok _).congr (by simp [domain, payloads, timings])
    | cardScan => exact (Decides.ok _).congr (by simp [domain, payloads, timings])
    | apdu data =>
      apply (toApdu_decides data).bind_ok.bind_ok.congr
      simp [domain, payloads, timings, payloadSizes]
    | enterPin entry =>
      apply entry.tryInto_decides.bind_ok.bind_ok.congr
      simp [domain, payloads, timings, payloadSizes]
      constructor
      · rintro ⟨hfield, htimes, hapdu⟩
        exact ⟨hapdu, htimes, fun _ field heq => heq ▸ hfield field⟩
      · rintro ⟨hapdu, htimes, hfield⟩
        exact ⟨fun field => hfield entry field rfl, htimes, hapdu⟩

/-- Each payload of a command lies in full in the field of the struct made from it. -/
theorem holds_of_tryInto {c : Command} {raw : OsdpCmd} (h : c.tryInto = .ok raw) :
    List.Forall₂ (fun f p => f.Holds p.length p) raw.payloadFields c.payloads := by
  cases c with
  | led c =>
    obtain ⟨led, -, rfl⟩ := bind_pure_eq_ok.1 h
    exact .nil
  | buzzer c =>
    obtain ⟨buzzer, -, rfl⟩ := bind_pure_eq_ok.1 h
    exact .nil
  | text c =>
    obtain ⟨text, htext, rfl⟩ := bind_pure_eq_ok.1 h
    simp only [TextCommand.tryInto, bind_eq_ok, pure_eq_ok, Except.ok.injEq] at htext
    obtain ⟨_, -, data, hdata, rfl⟩ := htext
    exact .cons (PayloadField.of_holds_copyInto hdata (toNat_len8 hdata (by decide))) .nil
  | output c =>
    obtain ⟨output, -, rfl⟩ := bind_pure_eq_ok.1 h
    exact .nil
  | comSet c => cases h; exact .nil
  | comSetDone c => cases h; exact .nil
  | keySet c =>
    obtain ⟨keyset, hkeyset, rfl⟩ := bind_pure_eq_ok.1 h
    obtain ⟨data, hdata, rfl⟩ := bind_pure_eq_ok.1 hkeyset
    exact .cons (PayloadField.of_holds_copyInto hdata (toNat_len8 hdata (by decide))) .nil
  | mfg c =>
    obtain ⟨mfg, hmfg, rfl⟩ := bind_pure_eq_ok.1 h
    obtain ⟨data, hdata, rfl⟩ := bind_pure_eq_ok.1 hmfg
    exact .cons (PayloadField.of_holds_copyInto hdata (toNat_len8 hdata (by decide))) .nil
  | fileTx c => cases h; exact .nil
  | status c => cases h; exact .nil
  | bioRead c => cases h; exact .nil
  | bioMatch c =>
    obtain ⟨biomatch, hbiomatch, rfl⟩ := bind_pure_eq_ok.1 h
    obtain ⟨data, hdata, rfl⟩ := bind_pure_eq_ok.1 hbiomatch
    exact .cons (PayloadField.of_holds_copyInto hdata (toNat_len16 hdata (by decide))) .nil
  | timeDate c =>
    obtain ⟨tdset, -, rfl⟩ := bind_pure_eq_ok.1 h
    exact .nil
  | pivData c => cases h; exact .nil
  | genAuth c =>
    obtain ⟨auth, hauth, rfl⟩ := bind_pure_eq_ok.1 h
    exact .cons (Challenge.holds_of_tryInto hauth) .nil
  | crAuth c =>
    obtain ⟨auth, hauth, rfl⟩ := bind_pure_eq_ok.1 h
    exact .cons (Challenge.holds_of_tryInto hauth) .nil
  | trs c =>
    obtain ⟨trs, htrs, rfl⟩ := bind_pure_eq_ok.1 h
    cases c with
    | start => cases htrs; exact .nil
    | stop => cases htrs; exact .nil
    | cardScan => cases htrs; exact .nil
    | apdu data =>
      obtain ⟨apdu, hapdu, rfl⟩ := bind_pure_eq_ok.1 htrs
      exact .cons (toApdu_holds hapdu) .nil
    | enterPin entry =>
      obtain ⟨pinEntry, hentry, rfl⟩ := bind_pure_eq_ok.1 htrs
      simp only [PinEntry.tryInto, bind_eq_ok, pure_eq_ok, Except.ok.injEq] at hentry
      obtain ⟨_, -, _, -, _, -, apdu, hapdu, rfl⟩ := hentry
      exact .cons (toApdu_holds hapdu) .nil

/-- **Command encoding refuses exactly what LibOSDP cannot carry**, and what it produces holds
    every payload at its exact length, with zeroes after it. -/
theorem command_encoding_exact (c : Command) :
    ((∃ raw, c.tryInto = .ok raw) ↔ c.Encodable) ∧
      ∀ raw, c.tryInto = .ok raw →
        List.Forall₂ (fun f p => f.Holds p.length p) raw.payloadFields c.payloads :=
  ⟨c.tryInto_decides.ok_iff, fun _ => holds_of_tryInto⟩

end Command

end LibOsdp
