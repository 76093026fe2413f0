import LibOsdp.Codec.EventGrammar

/-!
# What an event encodes

The events LibOSDP can carry, said without the encoder. A payload's length is counted in bytes,
in the bits of a card or in the entries of a status, as the length field beside its buffer counts.
-/

set_option autoImplicit false

namespace LibOsdp

open Base Sys

/-- The length-prefixed payloads of a struct of its type, each with its length field as it
    stands: a card read counts bits. -/
def Sys.OsdpEvent.lengthFields (raw : OsdpEvent) : List PayloadField :=
  if raw.type = OSDP_EVENT_CARDREAD then
    [.of raw.payload.cardread.length.toNat raw.payload.cardread.data]
  else raw.payloadFields

/-- A payload of an event: its bytes, its length in the unit of its length field, and the least
    and the greatest size of it that LibOSDP carries, in bytes. -/
structure Sized where
  bytes : List UInt8
  count : Nat := bytes.length
  least : Nat := 0
  most : Nat

namespace Event

/-- The payloads of an event, in the order of its fields. Only a smart card's reply has to have
    some bytes. -/
def sized : Event → List Sized
  | cardRead e => [{ bytes := e.data, count := e.nrBits, most := 64 }]
  | keyPress e => [{ bytes := e.data, most := 64 }]
  | mfgReply e => [{ bytes := e.data, most := 128 }]
  | mfgStatus e => [{ bytes := e.data, most := 128 }]
  | mfgError e => [{ bytes := e.data, most := 128 }]
  | bioRead e => [{ bytes := e.template, most := 256 }]
  | bioMatch _ => []
  | pivData e => [{ bytes := e.data, least := 1, most := 256 }]
  | genAuth e => [{ bytes := e.data, least := 1, most := 256 }]
  | crAuth e => [{ bytes := e.data, least := 1, most := 256 }]
  | trs (.cardInfo info) =>
    [{ bytes := info.csn, most := 32 }, { bytes := info.protocolData, most := 64 }]
  | trs (.cardData data) => [{ bytes := data.apdu, most := 258 }]
  | trs _ => []
  | status e => [{ bytes := e.entries, most := 64 }]

/-- The events that LibOSDP can carry. -/
structure Encodable (e : Event) : Prop where
  payloads_fit : ∀ p ∈ e.sized, p.least ≤ p.bytes.length ∧ p.bytes.length ≤ p.most
  bits_in_data : ∀ c, e = cardRead c → c.nrBits ≤ 8 * c.data.length

theorem encodable_iff {e : Event} :
    e.Encodable ↔ (∀ p ∈ e.sized, p.least ≤ p.bytes.length ∧ p.bytes.length ≤ p.most) ∧
      ∀ c, e = cardRead c → c.nrBits ≤ 8 * c.data.length :=
  ⟨fun h => ⟨h.1, h.2⟩, fun h => ⟨h.1, h.2⟩⟩

/-- The encoder, event by event: each codec decides its own part of the domain. -/
theorem tryInto_decides (e : Event) : Decides Fault.Refused e.Encodable e.tryInto := by
  have domain := @encodable_iff e
  cases e with
  | cardRead e =>
    apply e.tryInto_decides.bind_ok.congr
    simp [domain, sized]
  | keyPress e =>
    apply e.tryInto_decides.bind_ok.congr
    simp [domain, sized]
  | mfgReply e =>
    apply e.tryInto_decides.bind_ok.congr
    simp [domain, sized]
  | mfgStatus e =>
    apply e.tryInto_decides.bind_ok.congr
    simp [domain, sized]
  | mfgError e =>
    apply e.tryInto_decides.bind_ok.congr
    simp [domain, sized]
  | bioRead e =>
    apply e.tryInto_decides.bind_ok.congr
    simp [domain, sized]
  | bioMatch e => exact (Decides.ok _).congr (by simp [domain, sized])
  | pivData e =>
    apply e.tryInto_decides.bind_ok.congr
    simp [domain, sized]
  | genAuth e =>
    apply e.tryInto_decides.bind_ok.congr
    simp [domain, sized]
  | crAuth e =>
    apply e.tryInto_decides.bind_ok.congr
    simp [domain, sized]
  | trs e =>
    cases e with
    | cardInfo info =>
      refine (((TrsReply.bytesTo_decides _ info.csn).bind fun _ _ =>
        (TrsReply.bytesTo_decides _ info.protocolData).bind_ok).bind_ok).congr ?_
      simp [domain, sized]
    | cardPresent reader status => exact (Decides.ok _).congr (by simp [domain, sized])
    | cardData data =>
      apply (toApdu_decides data.apdu).bind_ok.bind_ok.congr
      simp [domain, sized]
    | pinComplete pin => exact (Decides.ok _).congr (by simp [domain, sized])
    | error code => exact (Decides.ok _).congr (by simp [domain, sized])
  | status e =>
    apply e.tryInto_decides.bind_ok.congr
    simp [domain, sized]

/-- Each payload of an event lies in full in the field of the struct made from it, under its
    exact length. -/
theorem holds_of_tryInto {e : Event} {raw : OsdpEvent} (h : e.tryInto = .ok raw) :
    List.Forall₂ (fun f p => f.Holds p.count p.bytes) raw.lengthFields e.sized := by
  cases e with
  | cardRead e =>
    obtain ⟨cardread, hcardread, rfl⟩ := bind_pure_eq_ok.1 h
    exact .cons (CardRead.holds_of_tryInto hcardread) .nil
  | keyPress e =>
    obtain ⟨keypress, hkeypress, rfl⟩ := bind_pure_eq_ok.1 h
    obtain ⟨data, hdata, rfl⟩ := bind_pure_eq_ok.1 hkeypress
    exact .cons (PayloadField.holds_copyInto hdata (toInt_len32 hdata (by decide))) .nil
  | mfgReply e =>
    obtain ⟨mfgrep, hmfgrep, rfl⟩ := bind_pure_eq_ok.1 h
    obtain ⟨data, hdata, rfl⟩ := bind_pure_eq_ok.1 hmfgrep
    exact .cons (PayloadField.of_holds_copyInto hdata (toNat_len8 hdata (by decide))) .nil
  | mfgStatus e =>
    obtain ⟨mfgstatr, hmfgstatr, rfl⟩ := bind_pure_eq_ok.1 h
    obtain ⟨data, hdata, rfl⟩ := bind_pure_eq_ok.1 hmfgstatr
    exact .cons (PayloadField.of_holds_copyInto hdata (toNat_len8 hdata (by decide))) .nil
  | mfgError e =>
    obtain ⟨mfgerrr, hmfgerrr, rfl⟩ := bind_pure_eq_ok.1 h
    obtain ⟨data, hdata, rfl⟩ := bind_pure_eq_ok.1 hmfgerrr
    exact .cons (PayloadField.of_holds_copyInto hdata (toNat_len8 hdata (by decide))) .nil
  | bioRead e =>
    obtain ⟨bioreadr, hbioreadr, rfl⟩ := bind_pure_eq_ok.1 h
    obtain ⟨data, hdata, rfl⟩ := bind_pure_eq_ok.1 hbioreadr
    exact .cons (PayloadField.of_holds_copyInto hdata (toNat_len16 hdata (by decide))) .nil
  | bioMatch e => cases h; exact .nil
  | pivData e =>
    obtain ⟨pivReply, hpivReply, rfl⟩ := bind_pure_eq_ok.1 h
    exact .cons (PivReply.holds_of_tryInto hpivReply) .nil
  | genAuth e =>
    obtain ⟨pivReply, hpivReply, rfl⟩ := bind_pure_eq_ok.1 h
    exact .cons (PivReply.holds_of_tryInto hpivReply) .nil
  | crAuth e =>
    obtain ⟨pivReply, hpivReply, rfl⟩ := bind_pure_eq_ok.1 h
    exact .cons (PivReply.holds_of_tryInto hpivReply) .nil
  | trs e =>
    obtain ⟨trs, htrs, rfl⟩ := bind_pure_eq_ok.1 h
    cases e with
    | cardInfo info =>
      simp only [TrsReply.tryInto, bind_eq_ok, pure_eq_ok, Except.ok.injEq] at htrs
      obtain ⟨⟨csnLen, csn⟩, hcsn, ⟨dataLen, data⟩, hdata, rfl⟩ := htrs
      exact .cons (TrsReply.bytesTo_holds (by decide) hcsn)
        (.cons (TrsReply.bytesTo_holds (by decide) hdata) .nil)
    | cardPresent reader status => cases htrs; exact .nil
    | cardData data =>
      obtain ⟨apdu, hapdu, rfl⟩ := bind_pure_eq_ok.1 htrs
      exact .cons (toApdu_holds hapdu) .nil
    | pinComplete pin => cases htrs; exact .nil
    | error code => cases htrs; exact .nil
  | status e =>
    obtain ⟨status, hstatus, rfl⟩ := bind_pure_eq_ok.1 h
    obtain ⟨report, hreport, rfl⟩ := bind_pure_eq_ok.1 hstatus
    exact .cons (PayloadField.holds_copyInto hreport (toInt_len32 hreport (by decide))) .nil

/-- **Event encoding refuses exactly what LibOSDP cannot carry**: what it produces holds every
    payload under its exact length with zeroes after it, and what it refuses is reported as too
    long or as an invalid argument. -/
theorem event_encoding_exact (e : Event) :
    ((∃ raw, e.tryInto = .ok raw) ↔ e.Encodable) ∧
      (∀ raw, e.tryInto = .ok raw →
        List.Forall₂ (fun f p => f.Holds p.count p.bytes) raw.lengthFields e.sized) ∧
      ∀ f, e.tryInto = .error f →
        (∃ max, f = .err (.tooLong max)) ∨ ∃ what, f = .err (.invalidArgument what) := by
  refine ⟨e.tryInto_decides.ok_iff, fun _ => holds_of_tryInto, fun f hf => ?_⟩
  have h := e.tryInto_decides
  rw [hf] at h
  exact Fault.refused_iff.1 h.2

end Event

end LibOsdp
