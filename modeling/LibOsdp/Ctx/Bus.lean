import LibOsdp.Base.BitMask
import LibOsdp.Codec.PdInfo
import LibOsdp.Ctx.Drain

/-!
# The PDs on a bus

The builder of a control panel hands out an index for each PD that is added, and the panel names a
PD to LibOSDP by that index: in the array of descriptions, where its file ops are registered, in
the masks that LibOSDP fills, and in each of its events. They all mean the PD the index was handed
out for, for every sequence of additions.
-/

set_option autoImplicit false

namespace LibOsdp

open Base Sys

variable {F : Type}

/-- What `add_pd` is given: the description of a PD, with its file ops if it has any. -/
structure Added (F : Type) where
  info : PdInfoBuilder
  fileOps : Option F

/-- `cp.rs`: the builder of a control panel, less its channel and the capacity of its queue. -/
structure ControlPanelBuilder (F : Type) where
  pdInfo : List (Added F) := []

/-- What the builder hands to LibOSDP. -/
structure Bus (F : Type) where
  /-- The array of descriptions. -/
  info : List PdInfo
  /-- The file ops to register, in order. -/
  fileOps : List (PdIndex × F)

/-- The file ops of PDs that are numbered from `start` on, under their indices. -/
def registrations (pds : List (Added F)) (start : Nat) : List (PdIndex × F) :=
  (pds.zipIdx start).filterMap fun entry => entry.1.fileOps.map (UInt8.ofNat entry.2, ·)

namespace ControlPanelBuilder

def MAX_PDS_PER_BUS : Nat := 126

/-- `ControlPanelBuilder::add_pd`: its result, and the builder after it. -/
def addPd (self : ControlPanelBuilder F) (pd : Added F) : Res PdIndex × ControlPanelBuilder F :=
  if self.pdInfo.length = MAX_PDS_PER_BUS then
    (invalidArgument "more than 126 PDs on one bus", self)
  else
    let pdInfo := self.pdInfo ++ [pd]
    (.ok (UInt8.ofNat (pdInfo.length - 1)), { self with pdInfo })

/-- The results of one call after the other, and the builder after them all. -/
def addAll (self : ControlPanelBuilder F) : List (Added F) → List (Res PdIndex) × ControlPanelBuilder F
  | [] => ([], self)
  | pd :: pds =>
    let (answer, next) := self.addPd pd
    let (answers, last) := next.addAll pds
    (answer :: answers, last)

/-- What `ControlPanelBuilder::build` makes of the PDs. -/
def bus (self : ControlPanelBuilder F) : Res (Bus F) := do
  let info ← self.pdInfo.mapM fun pd => pd.info.build
  return { info, fileOps := registrations self.pdInfo 0 }

end ControlPanelBuilder

/-- `PdIndex::as_c`. -/
def PdIndex.asC (pd : PdIndex) : Int32 := Int32.ofNat pd.toNat

/-- What LibOSDP knows of the PDs of a context, by their offsets in the array. -/
structure Link where
  online : Nat → Bool
  secure : Nat → Bool
  /-- What each PD last reported of itself. -/
  id : Nat → OsdpPdId
  /-- The compliance level and the number of items of each function, zeros unless reported. -/
  cap : Nat → UInt8 → UInt8 × UInt8

/-- What LibOSDP makes of a buffer or a struct that a panel has it fill, with the result if there is
    one. -/
structure Getters where
  osdpGetStatusMask : List UInt8 → List UInt8
  osdpGetScStatusMask : List UInt8 → List UInt8
  osdpCpGetPdId : Int32 → OsdpPdId → Int32 × OsdpPdId
  osdpCpGetCapability : Int32 → OsdpPdCap → Int32 × OsdpPdCap

/-- A buffer of a byte for each eight PDs, or part of them, gets the bit of each: that of the first
    is the lowest of a byte. -/
def Masks (numPd : Nat) (bits : Nat → Bool) (mask : List UInt8 → List UInt8) : Prop :=
  ∀ buf, (numPd + 7) / 8 ≤ buf.length → ∀ offset < numPd,
    ∃ byte, (mask buf)[offset / 8]? = some byte ∧ byte.toNat.testBit (offset % 8) = bits offset

/-- What `bindings.rs` says of the getters, and a panel relies on, for a context of `numPd` PDs. Those
    with a result may fail; then nothing is said of the struct. -/
structure Getters.Documented (ctx : Getters) (numPd : Nat) (link : Link) : Prop where
  statusMask : Masks numPd link.online ctx.osdpGetStatusMask
  scStatusMask : Masks numPd link.secure ctx.osdpGetScStatusMask
  pdId : ∀ pd : Int32, 0 ≤ pd.toInt → pd.toInt < numPd → ∀ raw id,
    ctx.osdpCpGetPdId pd raw = (0, id) → id = link.id pd.toInt.toNat
  capability : ∀ pd : Int32, 0 ≤ pd.toInt → pd.toInt < numPd → ∀ raw cap,
    ctx.osdpCpGetCapability pd raw = (0, cap) →
      let (complianceLevel, numItems) := link.cap pd.toInt.toNat raw.functionCode
      cap = { raw with complianceLevel, numItems }

namespace ControlPanel

variable (ctx : Getters)

/-- `ControlPanel::is_online` and `ControlPanel::is_secure`, by the mask they read. -/
def maskBit (mask : List UInt8 → List UInt8) (pd : PdIndex) : Res Bool :=
  okOr (testBit? (mask (List.replicate 16 0)) pd.toNat) .panic

/-- `ControlPanel::is_online`. -/
def isOnline (pd : PdIndex) : Res Bool := maskBit ctx.osdpGetStatusMask pd

/-- `ControlPanel::is_secure`. -/
def isSecure (pd : PdIndex) : Res Bool := maskBit ctx.osdpGetScStatusMask pd

/-- `ControlPanel::pd_id`. -/
def pdId (pd : PdIndex) : Res (Option PdId) := do
  if !(← isOnline ctx pd) then return none
  let (rc, raw) := ctx.osdpCpGetPdId pd.asC {}
  return if rc = 0 then some (.fromRaw raw) else none

/-- `ControlPanel::capability`. -/
def capability (pd : PdIndex) (function : CapFunction) : Res (Option Capability) := do
  if !(← isOnline ctx pd) then return none
  let (rc, raw) := ctx.osdpCpGetCapability pd.asC (Capability.intoRaw ⟨function, 0, 0⟩)
  return do
    let cap ← (Capability.tryFrom raw).toOption.filter fun _ => rc == 0
    if cap.compliance ≠ 0 ∨ cap.items ≠ 0 then some cap else none

end ControlPanel

variable {pd : Added F} {pds : List (Added F)} {bus : Bus F} {offset start numPd : Nat}
  {index : PdIndex} {ctx : Getters} {link : Link}

/-! ## The indices -/

namespace ControlPanelBuilder

variable {self : ControlPanelBuilder F}

/-- The answer to an addition when `offset` were tried before it. -/
def answer (offset : Nat) : Res PdIndex :=
  if offset < MAX_PDS_PER_BUS then .ok (UInt8.ofNat offset)
  else invalidArgument "more than 126 PDs on one bus"

theorem addPd_of_room (room : self.pdInfo.length < MAX_PDS_PER_BUS) :
    self.addPd pd = (answer self.pdInfo.length, { pdInfo := self.pdInfo ++ [pd] }) := by
  rw [addPd, if_neg room.ne, answer, if_pos room]
  dsimp only
  rw [List.length_append, List.length_singleton, Nat.add_sub_cancel]

theorem addPd_of_full (full : self.pdInfo.length = MAX_PDS_PER_BUS)
    (past : MAX_PDS_PER_BUS ≤ offset) : self.addPd pd = (answer offset, self) := by
  rw [addPd, if_pos full, answer, if_neg (Nat.not_lt.mpr past)]

/-- A full builder refuses all. -/
theorem addAll_of_full (full : self.pdInfo.length = MAX_PDS_PER_BUS)
    (past : MAX_PDS_PER_BUS ≤ start) :
    self.addAll pds = ((List.range' start pds.length).map answer, self) := by
  induction pds generalizing start with
  | nil => rfl
  | cons pd pds ih =>
    rw [addAll, addPd_of_full full past]
    dsimp only
    rw [ih (Nat.le_succ_of_le past)]
    rfl

/-- Each addition is answered by how many were tried before it, and the first 126 are kept. -/
theorem addAll_eq (room : self.pdInfo.length ≤ MAX_PDS_PER_BUS) :
    self.addAll pds = ((List.range' self.pdInfo.length pds.length).map answer,
      { pdInfo := self.pdInfo ++ pds.take (MAX_PDS_PER_BUS - self.pdInfo.length) }) := by
  induction pds generalizing self with
  | nil => simp [addAll]
  | cons pd pds ih =>
    rcases room.lt_or_eq with room | full
    · have next := @ih { pdInfo := self.pdInfo ++ [pd] } (by rw [List.length_append]; exact room)
      have left : MAX_PDS_PER_BUS - self.pdInfo.length =
          MAX_PDS_PER_BUS - (self.pdInfo.length + 1) + 1 := by omega
      rw [addAll, addPd_of_room room]
      dsimp only
      rw [next, left, List.take_succ_cons, List.length_append, List.length_singleton,
        List.append_assoc]
      rfl
    · rw [addAll_of_full full full.ge, full, Nat.sub_self, List.take_zero, List.append_nil]

end ControlPanelBuilder

/-! ## The file ops -/

/-- The file ops registered under an index. -/
def Bus.served (self : Bus F) (pd : PdIndex) : List F :=
  (self.fileOps.filter (·.1 = pd)).map Prod.snd

theorem registrations_cons : registrations (pd :: pds) start =
    (pd.fileOps.map (UInt8.ofNat start, ·)).toList ++ registrations pds (start + 1) := by
  rw [registrations, List.zipIdx_cons, List.filterMap_cons]
  dsimp only
  cases pd.fileOps <;> rfl

theorem ofNat_ne {i j : Nat} (lt : i < j) (small : j < 256) : UInt8.ofNat i ≠ UInt8.ofNat j := by
  intro eq
  have := congrArg UInt8.toNat eq
  rw [UInt8.toNat_ofNat_of_lt' (lt.trans small), UInt8.toNat_ofNat_of_lt' small] at this
  omega

theorem filter_registration {own : PdIndex} {ops : Option F} :
    (ops.map (own, ·)).toList.filter (·.1 = index) =
      if own = index then (ops.map (own, ·)).toList else [] := by
  cases ops
  · split <;> rfl
  · by_cases same : own = index <;> simp [same]

theorem filter_registrations_of_lt (before : offset < start) (small : start + pds.length ≤ 256) :
    (registrations pds start).filter (·.1 = UInt8.ofNat offset) = [] := by
  induction pds generalizing start with
  | nil => rfl
  | cons pd pds ih =>
    rw [List.length_cons] at small
    have other : UInt8.ofNat start ≠ UInt8.ofNat offset := (ofNat_ne before (by omega)).symm
    rw [registrations_cons, List.filter_append, ih (by omega) (by omega), filter_registration,
      if_neg other]
    rfl

theorem filter_registrations {i : Nat} (found : pds[i]? = some pd)
    (small : start + pds.length ≤ 256) :
    (registrations pds start).filter (·.1 = UInt8.ofNat (start + i)) =
      (pd.fileOps.map (UInt8.ofNat (start + i), ·)).toList := by
  induction pds generalizing start i with
  | nil => cases found
  | cons first pds ih =>
    have inside : i < pds.length + 1 := (List.getElem?_eq_some_iff.mp found).1
    rw [List.length_cons] at small
    rw [registrations_cons, List.filter_append, filter_registration]
    cases i with
    | zero =>
      obtain rfl := Option.some.inj found
      rw [Nat.add_zero, filter_registrations_of_lt (Nat.lt_succ_self start) (by omega), if_pos rfl,
        List.append_nil]
    | succ i =>
      have other : UInt8.ofNat start ≠ UInt8.ofNat (start + (i + 1)) := ofNat_ne (by omega) (by omega)
      have rest := @ih (start + 1) i found (by omega)
      have shift : start + 1 + i = start + (i + 1) := by omega
      rw [shift] at rest
      rw [rest, if_neg other]
      rfl

/-! ## What LibOSDP is asked -/

theorem toInt_asC (small : offset < 256) : (PdIndex.asC (UInt8.ofNat offset)).toInt = offset := by
  have int : (PdIndex.asC (UInt8.ofNat offset)).toInt = (UInt8.ofNat offset).toNat :=
    PdId.toInt_ofByte _
  rw [int, UInt8.toNat_ofNat_of_lt' small]

namespace ControlPanel

/-- The buffer of a panel holds the mask of any bus, and the bit of a PD is its own. -/
theorem maskBit_eq {bits : Nat → Bool} {mask : List UInt8 → List UInt8} (few : numPd ≤ 126)
    (masks : Masks numPd bits mask) (inside : offset < numPd) :
    maskBit mask (UInt8.ofNat offset) = .ok (bits offset) := by
  have fits : (numPd + 7) / 8 ≤ (List.replicate 16 (0 : UInt8)).length := by
    rw [List.length_replicate]
    omega
  have index : (UInt8.ofNat offset).toNat = offset :=
    UInt8.toNat_ofNat_of_lt' (show offset < 256 by omega)
  obtain ⟨byte, found, bit⟩ := masks _ fits offset inside
  rw [maskBit, index, testBit?_of_byte found, bit, okOr_some]

theorem pdId_eq (few : numPd ≤ 126) (documented : ctx.Documented numPd link)
    (inside : offset < numPd) :
    pdId ctx (UInt8.ofNat offset) =
      .ok (if link.online offset ∧ (ctx.osdpCpGetPdId (PdIndex.asC (UInt8.ofNat offset)) {}).1 = 0
        then some (.fromRaw (link.id offset)) else none) := by
  have int := toInt_asC (show offset < 256 by omega)
  rw [pdId, isOnline, maskBit_eq few documented.statusMask inside, ok_bind]
  cases link.online offset with
  | false => rfl
  | true =>
    cases answer : ctx.osdpCpGetPdId (PdIndex.asC (UInt8.ofNat offset)) {} with
    | mk rc raw =>
      by_cases made : rc = 0
      · subst made
        have filled := documented.pdId _ (by omega) (by omega) _ _ answer
        rw [int, Int.toNat_natCast] at filled
        rw [filled]
        rfl
      · simp [made]

/-- An entry that is advertised with two zeros reads as one that is not advertised. -/
theorem capability_eq (few : numPd ≤ 126) (documented : ctx.Documented numPd link)
    (inside : offset < numPd) {function : CapFunction} {cap : UInt8 × UInt8}
    (advertised : link.cap offset function.intoCode = cap) :
    capability ctx (UInt8.ofNat offset) function =
      .ok (if link.online offset ∧ (ctx.osdpCpGetCapability (PdIndex.asC (UInt8.ofNat offset))
          (Capability.intoRaw ⟨function, 0, 0⟩)).1 = 0 ∧ cap ≠ (0, 0)
        then some ⟨function, cap.1, cap.2⟩ else none) := by
  have int := toInt_asC (show offset < 256 by omega)
  rw [capability, isOnline, maskBit_eq few documented.statusMask inside, ok_bind]
  cases link.online offset with
  | false => simp
  | true =>
    cases answer : ctx.osdpCpGetCapability (PdIndex.asC (UInt8.ofNat offset))
        (Capability.intoRaw ⟨function, 0, 0⟩) with
    | mk rc raw =>
      by_cases made : rc = 0
      · subst made
        have filled : raw = Capability.intoRaw ⟨function, cap.1, cap.2⟩ := by
          have filled := documented.capability _ (by omega) (by omega) _ _ answer
          rw [int, Int.toNat_natCast] at filled
          rw [filled, ← advertised]
          rfl
        rw [filled]
        by_cases absent : cap = (0, 0)
        · rw [absent, if_neg (by simp)]
          cases function <;> rfl
        · have some : cap.1 ≠ 0 ∨ cap.2 ≠ 0 := by
            rw [← not_and_or]
            exact fun zeros => absent (Prod.ext zeros.1 zeros.2)
          simp only [Capability.tryFrom_intoRaw, absent, ne_eq, not_false_eq_true, and_self, if_true]
          exact congrArg Except.ok (if_pos some)
      · have refused : ((Capability.tryFrom raw).toOption.filter fun _ => rc == 0) = none := by
          simp [made]
        simp [refused, made]

end ControlPanel

/-- An event of the PD at an offset comes with the index of that offset. -/
theorem PdIndex.ofC_asC : PdIndex.ofC (PdIndex.asC index) = index := by
  have int : (PdIndex.asC index).toInt = index.toNat := PdId.toInt_ofByte index
  have small : index.toNat < 256 := index.toNat_lt
  have same := @PdIndex.toNat_ofC (PdIndex.asC index) (by omega) (by omega)
  rw [int] at same
  exact UInt8.toNat_inj.mp (by omega)

/-- What an index means on a bus, if it was handed out for `pd`, which is at `offset`. -/
structure Addresses (ctx : Getters) (link : Link) (bus : Bus F) (offset : Nat) (pd : Added F)
    (index : PdIndex) : Prop where
  /-- The description LibOSDP has there. -/
  info : ∃ info, pd.info.build = .ok info ∧ bus.info[offset]? = some info
  /-- The file ops that are registered under it: its own, or none. -/
  served : bus.served index = pd.fileOps.toList
  /-- What LibOSDP is told. -/
  submits : index.asC.toInt = offset
  event : PdIndex.ofC (Int32.ofNat offset) = index
  online : ControlPanel.isOnline ctx index = .ok (link.online offset)
  secure : ControlPanel.isSecure ctx index = .ok (link.secure offset)
  pdId : ControlPanel.pdId ctx index =
    .ok (if link.online offset ∧ (ctx.osdpCpGetPdId index.asC {}).1 = 0
      then some (.fromRaw (link.id offset)) else none)
  capability : ∀ function, ControlPanel.capability ctx index function =
    .ok (if link.online offset ∧
        (ctx.osdpCpGetCapability index.asC (Capability.intoRaw ⟨function, 0, 0⟩)).1 = 0 ∧
        link.cap offset function.intoCode ≠ (0, 0) then
      some ⟨function, (link.cap offset function.intoCode).1, (link.cap offset function.intoCode).2⟩
    else none)

/-- An index addresses the PD at its offset in the builder. -/
theorem Addresses.of_bus {self : ControlPanelBuilder F} (built : self.bus = .ok bus)
    (few : self.pdInfo.length ≤ 126) (documented : ctx.Documented self.pdInfo.length link)
    (found : self.pdInfo[offset]? = some pd) :
    Addresses ctx link bus offset pd (UInt8.ofNat offset) := by
  obtain ⟨info, made, rfl⟩ := bind_pure_eq_ok.mp built
  have inside : offset < self.pdInfo.length := (List.getElem?_eq_some_iff.mp found).1
  have index : (UInt8.ofNat offset).toNat = offset :=
    UInt8.toNat_ofNat_of_lt' (show offset < 256 by omega)
  have own := filter_registrations found (show 0 + self.pdInfo.length ≤ 256 by omega)
  rw [Nat.zero_add] at own
  have described : ∃ i, pd.info.build = .ok i ∧ info[offset]? = some i :=
    @getElem?_of_mapM _ _ _ (fun pd : Added F => pd.info.build) _ _ _ _ made found
  exact {
    info := described
    served := by
      rw [Bus.served, own]
      cases pd.fileOps <;> rfl
    submits := toInt_asC (by omega)
    event := by
      have same := @PdIndex.ofC_asC (UInt8.ofNat offset)
      rwa [PdIndex.asC, index] at same
    online := ControlPanel.maskBit_eq few documented.statusMask inside
    secure := ControlPanel.maskBit_eq few documented.scStatusMask inside
    pdId := ControlPanel.pdId_eq few documented inside
    capability := fun function => ControlPanel.capability_eq few documented inside rfl }

/-- **An index addresses the PD that it was handed out for**, in all that a panel asks of LibOSDP
    and in all that LibOSDP tells it, whatever the sequence of additions: the first 126 are
    answered by their places in it, and the others refused. -/
theorem indices_address (pds : List (Added F)) (ctx : Getters) (link : Link)
    (documented : ctx.Documented (min pds.length 126) link) :
    ∃ bus, (ControlPanelBuilder.addAll {} pds).2.bus = .ok bus ∧
      bus.info.length = min pds.length 126 ∧
      (ControlPanelBuilder.addAll {} pds).1 =
        (List.range pds.length).map ControlPanelBuilder.answer ∧
      ∀ offset pd, offset < 126 → pds[offset]? = some pd →
        Addresses ctx link bus offset pd (UInt8.ofNat offset) := by
  have eq := @ControlPanelBuilder.addAll_eq F pds {} (Nat.zero_le _)
  have described : ∀ pd ∈ pds.take 126, ∃ info, pd.info.build = .ok info :=
    fun pd _ => PdInfoBuilder.build_ok pd.info
  obtain ⟨info, made⟩ := mapM_eq_ok.mpr described
  have length := length_of_mapM made
  rw [List.length_take, Nat.min_comm] at length
  have built : ControlPanelBuilder.bus { pdInfo := pds.take 126 } =
      .ok ⟨info, registrations (pds.take 126) 0⟩ := bind_pure_eq_ok.mpr ⟨info, made, rfl⟩
  rw [eq]
  refine ⟨_, built, length, by rw [List.range_eq_range']; rfl, fun offset pd lt found => ?_⟩
  refine .of_bus built (List.length_take_le _ _) ?_ ?_
  · rwa [List.length_take, Nat.min_comm]
  · rw [List.getElem?_take_of_lt lt]
    exact found

/-- Getters that never fail on a PD of the context. -/
def Link.getters (link : Link) (numPd : Nat) : Getters where
  osdpGetStatusMask buf := pack link.online ((numPd + 7) / 8) ++ buf.drop ((numPd + 7) / 8)
  osdpGetScStatusMask buf := pack link.secure ((numPd + 7) / 8) ++ buf.drop ((numPd + 7) / 8)
  osdpCpGetPdId pd id :=
    if 0 ≤ pd.toInt ∧ pd.toInt < numPd then (0, link.id pd.toInt.toNat) else (-1, id)
  osdpCpGetCapability pd cap :=
    if 0 ≤ pd.toInt ∧ pd.toInt < numPd then
      let (complianceLevel, numItems) := link.cap pd.toInt.toNat cap.functionCode
      (0, { cap with complianceLevel, numItems })
    else (-1, cap)

theorem Link.documented_getters : (link.getters numPd).Documented numPd link := by
  have masks : ∀ bits : Nat → Bool, Masks numPd bits fun buf =>
      pack bits ((numPd + 7) / 8) ++ buf.drop ((numPd + 7) / 8) := by
    intro bits buf _ offset inside
    exact ⟨_, getElem?_pack (by omega) _, testBit_packByte⟩
  exact {
    statusMask := masks _
    scStatusMask := masks _
    pdId := fun pd low high raw id answer => by
      dsimp only [Link.getters] at answer
      rw [if_pos ⟨low, high⟩] at answer
      exact (Prod.mk.inj answer).2.symm
    capability := fun pd low high raw cap answer => by
      dsimp only [Link.getters] at answer
      rw [if_pos ⟨low, high⟩] at answer
      exact (Prod.mk.inj answer).2.symm }

/-- Two PDs, of which the second alone is online and has a buzzer. -/
def twoPds : Link := ⟨(· == 1), fun _ => false, fun _ => {}, fun _ _ => (1, 1)⟩

theorem indices_address_two : ∃ bus : Bus Nat,
    (ControlPanelBuilder.addAll {} [⟨.new, some 5⟩, ⟨.new, none⟩]).2.bus = .ok bus ∧
    bus.served 0 = [5] ∧ ControlPanel.pdId (twoPds.getters 2) 0 = .ok none ∧
    ControlPanel.isOnline (twoPds.getters 2) 1 = .ok true ∧
    ControlPanel.capability (twoPds.getters 2) 1 .audibleOutput =
      .ok (some ⟨.audibleOutput, 1, 1⟩) := by
  obtain ⟨bus, built, -, -, address⟩ :=
    indices_address [⟨.new, some 5⟩, ⟨.new, none⟩] (twoPds.getters 2) twoPds Link.documented_getters
  have first := address 0 _ (by decide) rfl
  have second := address 1 _ (by decide) rfl
  exact ⟨bus, built, first.served, first.pdId, second.online, second.capability .audibleOutput⟩

end LibOsdp
