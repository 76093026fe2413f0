import LibOsdp.Base.Heap
import LibOsdp.Codec.Capability
import LibOsdp.Codec.PdId
import Mathlib.Data.Nat.Digits.Defs

/-!
# PD info

The description of a PD: its builder, and the C struct it is handed to LibOSDP in, with the
three blocks that struct points to. LibOSDP is told where the capabilities are and not how many:
it walks them to the sentinel that closes the array, and so does the handle when it gives the
array back to the allocator.
-/

set_option autoImplicit false

namespace LibOsdp

open Base Sys

/-- `CString`: bytes with no NUL among them. -/
structure CString where
  bytes : List UInt8
  no_nul : 0 ∉ bytes
deriving DecidableEq, Repr

/-- `CString::new`. -/
def CString.new (bytes : List UInt8) : Option CString :=
  if h : 0 ∉ bytes then some ⟨bytes, h⟩ else none

/-- `pdinfo.rs`: what describes a PD to LibOSDP. -/
structure PdInfo where
  name : CString
  address : Int32
  baudRate : Int32
  flags : UInt32
  id : PdId
  cap : List OsdpPdCap
  scbk : Option (Vector UInt8 16)
deriving DecidableEq, Repr

/-- `PdId::default`. -/
def PdId.default : PdId := ⟨0, 0, (0, 0, 0), (0, 0, 0, 0), (0, 0, 0)⟩

/-- `pdinfo.rs`: the builder of a `PdInfo`. -/
structure PdInfoBuilder where
  name : Option CString := none
  address : Int32 := 0
  baudRate : Int32 := 0
  flags : UInt32 := 0
  id : PdId := .default
  cap : List OsdpPdCap := []
  scbk : Option (Vector UInt8 16) := none
deriving DecidableEq, Repr

namespace PdInfoBuilder

/-- `PdInfoBuilder::new`. -/
def new : PdInfoBuilder := {}

def setName (self : PdInfoBuilder) (name : List UInt8) : Res PdInfoBuilder := do
  let name ← okOr (CString.new name) (.err (.invalidArgument "PD name contains a NUL"))
  return { self with name := some name }

def setAddress (self : PdInfoBuilder) (address : Int32) : Res PdInfoBuilder :=
  if address < 0 ∨ address > 126 then invalidArgument "PD address outside 0-126"
  else .ok { self with address }

def setBaudRate (self : PdInfoBuilder) (baudRate : Int32) : Res PdInfoBuilder :=
  if baudRate ≠ 9600 ∧ baudRate ≠ 19200 ∧ baudRate ≠ 38400 ∧ baudRate ≠ 57600 ∧
    baudRate ≠ 115200 ∧ baudRate ≠ 230400 then invalidArgument "unsupported baud rate"
  else .ok { self with baudRate }

def flag (self : PdInfoBuilder) (flag : UInt32) : PdInfoBuilder :=
  { self with flags := self.flags ||| flag }

def setId (self : PdInfoBuilder) (id : PdId) : PdInfoBuilder := { self with id }

/-- `PdInfoBuilder::capability`. -/
def capability (self : PdInfoBuilder) (cap : Capability) : PdInfoBuilder :=
  { self with cap := self.cap ++ [cap.intoRaw] }

/-- `PdInfoBuilder::capabilities`: one push a capability. -/
def capabilities (self : PdInfoBuilder) (caps : List Capability) : PdInfoBuilder :=
  caps.foldl (fun self cap => { self with cap := self.cap ++ [cap.intoRaw] }) self

def secureChannelKey (self : PdInfoBuilder) (key : Vector UInt8 16) : PdInfoBuilder :=
  { self with scbk := some key }

/-- The name of a PD that was given none: `PD-` and the low byte of its address. -/
def fallbackName (address : Int32) : List UInt8 :=
  [80, 68, 45] ++
    (Nat.toDigits 10 address.toUInt32.toUInt8.toNat).map fun digit => UInt8.ofNat digit.toNat

/-- The name a PD is built with. -/
def builtName (self : PdInfoBuilder) : Res CString :=
  match self.name with
  | some name => .ok name
  | none => okOr (CString.new (fallbackName self.address)) .panic

/-- `PdInfoBuilder::build`. -/
def build (self : PdInfoBuilder) : Res PdInfo := do
  let name ← self.builtName
  return {
    name
    address := self.address
    baudRate := self.baudRate
    flags := self.flags
    id := self.id
    cap := self.cap
    scbk := self.scbk }

end PdInfoBuilder

/-- `PdInfo::capabilities`. -/
def PdInfo.capabilities (self : PdInfo) : List Capability :=
  self.cap.filterMap fun cap => (Capability.tryFrom cap).toOption

/-- The entry that closes an array of capabilities. -/
def sentinelCap : OsdpPdCap :=
  { functionCode := OSDP_PD_CAP_SENTINEL, complianceLevel := 0, numItems := 0 }

/-- `caps` as the array LibOSDP reads, which it walks up to a sentinel entry. -/
def terminatedCapabilities (caps : List OsdpPdCap) : List OsdpPdCap := caps ++ [sentinelCap]

/-- The test of both walks. -/
def isSentinel (cap : OsdpPdCap) : Bool := cap.functionCode == OSDP_PD_CAP_SENTINEL

/-- What a handle points to. -/
inductive Block where
  | name (bytes : List UInt8)
  | caps (entries : List OsdpPdCap)
  | key (key : Vector UInt8 16)
deriving DecidableEq, Repr

/-- The bytes a block was allocated with; an `osdp_pd_cap` takes three. -/
def Block.size : Block → Nat
  | name bytes => bytes.length
  | caps entries => 3 * entries.length
  | key _ => 16

/-- `PdInfoHandle`: the `osdp_pd_info_t` handed to LibOSDP. -/
structure PdInfoHandle where
  name : Option Nat
  baudRate : UInt32
  address : Int32
  flags : UInt32
  id : OsdpPdId
  cap : Option Nat
  scbk : Option Nat
deriving DecidableEq, Repr

namespace PdInfoHandle

/-- The block `From<PdInfo>` allocates for the capabilities, when there are some. -/
def capsOf (info : PdInfo) : Option Block :=
  if ¬ info.cap.isEmpty then some (.caps (terminatedCapabilities info.cap)) else none

/-- `From<PdInfo> for PdInfoHandle`. -/
def fromInfo (info : PdInfo) (heap : Heap Block) : PdInfoHandle × Heap Block :=
  let scbk := heap.allocSome (info.scbk.map .key)
  let cap := scbk.2.allocSome (capsOf info)
  let name := cap.2.alloc (.name (info.name.bytes ++ [0]))
  ({ name := some name.1
     baudRate := info.baudRate.toUInt32
     address := info.address
     flags := info.flags
     id := info.id.intoRaw
     cap := cap.1
     scbk := scbk.1 }, name.2)

/-- `CString::from_raw` and its drop, which walks to the NUL for the length. -/
def freeName (heap : Heap Block) (base : Nat) : Option (Heap Block) :=
  match heap.read? base with
  | some (.name bytes) => (walkTo (· == 0) bytes 0).bind fun nul => heap.free Block.size base (nul + 1)
  | _ => none

/-- The loop over the capabilities, and `Vec::from_raw_parts` with the length it finds. -/
def freeCaps (heap : Heap Block) (base : Nat) : Option (Heap Block) :=
  match heap.read? base with
  | some (.caps entries) =>
    (walkTo isSentinel entries 0).bind fun cap =>
      let len := cap + 1
      heap.free Block.size base (3 * len)
  | _ => none

/-- `Box::from_raw` of a key. -/
def freeKey (heap : Heap Block) (base : Nat) : Option (Heap Block) := heap.free Block.size base 16

/-- A pointer that is given back unless it is null. -/
def unlessNull (ptr : Option Nat) (give : Heap Block → Nat → Option (Heap Block))
    (heap : Heap Block) : Option (Heap Block) :=
  match ptr with
  | some base => give heap base
  | none => some heap

/-- `Drop for PdInfoHandle`. It has no outcome when it reads past a block or gives one back with
    a size that is not its own. -/
def drop (info : PdInfoHandle) (heap : Heap Block) : Option (Heap Block) := do
  let heap ← unlessNull info.name freeName heap
  let heap ← unlessNull info.cap freeCaps heap
  unlessNull info.scbk freeKey heap

end PdInfoHandle

/-- The digits of an address are no NUL. -/
theorem PdInfoBuilder.no_nul_fallbackName (address : Int32) : 0 ∉ fallbackName address := by
  intro hmem
  rw [fallbackName, List.mem_append] at hmem
  obtain hprefix | hdigits := hmem
  · revert hprefix
    decide
  · obtain ⟨digit, hdigit, hzero⟩ := List.mem_map.1 hdigits
    have hrange := Nat.isDigit_of_mem_toDigits (by decide) (by decide) hdigit
    simp only [Char.isDigit, Bool.and_eq_true, decide_eq_true_eq] at hrange
    have hlow : 48 ≤ digit.toNat := hrange.1
    have hhigh : digit.toNat ≤ 57 := hrange.2
    have hval := congrArg UInt8.toNat hzero
    rw [UInt8.toNat_ofNat_of_lt' (by rw [UInt8.size]; omega)] at hval
    have : (0 : UInt8).toNat = 0 := rfl
    omega

/-- **A builder is always built**: the name it falls back on is a C string. -/
theorem PdInfoBuilder.build_ok (self : PdInfoBuilder) : ∃ info, self.build = .ok info := by
  obtain ⟨name, hname⟩ : ∃ name, self.builtName = .ok name := by
    rw [builtName]
    split
    · exact ⟨_, rfl⟩
    · rw [CString.new, dif_pos (no_nul_fallbackName _)]
      exact ⟨_, rfl⟩
  rw [build, hname]
  exact ⟨_, rfl⟩

/-- A call of a builder's methods. -/
inductive BuilderCall where
  | name (bytes : List UInt8)
  | address (number : Int32)
  | baudRate (rate : Int32)
  | flag (bits : UInt32)
  | id (pdId : PdId)
  | capability (cap : Capability)
  | capabilities (caps : List Capability)
  | secureChannelKey (key : Vector UInt8 16)
deriving DecidableEq, Repr

namespace BuilderCall

def apply (self : PdInfoBuilder) : BuilderCall → Res PdInfoBuilder
  | .name bytes => self.setName bytes
  | .address number => self.setAddress number
  | .baudRate rate => self.setBaudRate rate
  | .flag bits => .ok (self.flag bits)
  | .id pdId => .ok (self.setId pdId)
  | .capability cap => .ok (self.capability cap)
  | .capabilities caps => .ok (self.capabilities caps)
  | .secureChannelKey key => .ok (self.secureChannelKey key)

/-- The capabilities a call adds. -/
def added : BuilderCall → List Capability
  | capability cap => [cap]
  | capabilities caps => caps
  | _ => []

end BuilderCall

namespace PdInfoBuilder

/-- A chain of calls on a new builder, and the `build` that ends it. -/
def chain (calls : List BuilderCall) : Res PdInfo := do
  let builder ← calls.foldlM BuilderCall.apply new
  builder.build

@[simp] theorem capabilities_cap (self : PdInfoBuilder) (caps : List Capability) :
    (self.capabilities caps).cap = self.cap ++ caps.map Capability.intoRaw := by
  induction caps generalizing self with
  | nil => simp [capabilities]
  | cons cap rest ih =>
    have hstep : self.capabilities (cap :: rest) = (self.capability cap).capabilities rest := rfl
    rw [hstep, ih, capability, List.append_assoc]
    rfl

/-- **The step**: a call adds its capabilities at the end, and only that. -/
theorem cap_of_apply {self next : PdInfoBuilder} {call : BuilderCall}
    (h : call.apply self = .ok next) : next.cap = self.cap ++ call.added.map Capability.intoRaw := by
  cases call with
  | name bytes =>
    obtain ⟨name, -, rfl⟩ := bind_pure_eq_ok.1 h
    exact (List.append_nil _).symm
  | address number =>
    simp only [BuilderCall.apply, setAddress] at h
    split at h
    · cases h
    · cases h
      exact (List.append_nil _).symm
  | baudRate rate =>
    simp only [BuilderCall.apply, setBaudRate] at h
    split at h
    · cases h
    · cases h
      exact (List.append_nil _).symm
  | capability cap =>
    cases h
    rfl
  | capabilities caps =>
    cases h
    exact capabilities_cap self caps
  | flag | id | secureChannelKey =>
    cases h
    exact (List.append_nil _).symm

/-- **The run**: a builder holds the capabilities added, in order. -/
theorem cap_of_foldlM {self last : PdInfoBuilder} {calls : List BuilderCall}
    (h : calls.foldlM BuilderCall.apply self = .ok last) :
    last.cap = self.cap ++ (calls.flatMap BuilderCall.added).map Capability.intoRaw := by
  induction calls generalizing self with
  | nil =>
    cases h
    simp
  | cons call rest ih =>
    rw [List.foldlM_cons, bind_eq_ok] at h
    obtain ⟨next, hnext, hrest⟩ := h
    rw [ih hrest, cap_of_apply hnext, List.flatMap_cons, List.map_append, List.append_assoc]

theorem cap_of_chain {calls : List BuilderCall} {info : PdInfo} (h : chain calls = .ok info) :
    info.cap = (calls.flatMap BuilderCall.added).map Capability.intoRaw := by
  obtain ⟨builder, hbuilder, hbuild⟩ := bind_eq_ok.1 h
  obtain ⟨name, -, rfl⟩ := bind_pure_eq_ok.1 hbuild
  exact (cap_of_foldlM hbuilder).trans (List.nil_append _)

end PdInfoBuilder

theorem Capability.isSentinel_intoRaw (cap : Capability) : isSentinel cap.intoRaw = false :=
  beq_false_of_ne (CapFunction.intoCode_ne_sentinel cap.function)

theorem isSentinel_of_mem {caps : List Capability} {entry : OsdpPdCap}
    (h : entry ∈ caps.map Capability.intoRaw) : isSentinel entry = false := by
  obtain ⟨cap, -, rfl⟩ := List.mem_map.1 h
  exact cap.isSentinel_intoRaw

/-- What was encoded is read back, none dropped. -/
theorem PdInfo.capabilities_eq {info : PdInfo} {caps : List Capability}
    (h : info.cap = caps.map Capability.intoRaw) : info.capabilities = caps := by
  rw [capabilities, h, List.filterMap_map]
  have hread : ((fun cap => (Capability.tryFrom cap).toOption) ∘ Capability.intoRaw) = some := by
    funext cap
    show (Capability.tryFrom cap.intoRaw).toOption = some cap
    rw [Capability.tryFrom_intoRaw]
    rfl
  rw [hread, List.filterMap_some]

/-- The array handed over stops both walks at the entry appended last. -/
theorem stopsAt_terminated {entries : List OsdpPdCap} (h : ∀ e ∈ entries, isSentinel e = false) :
    StopsAt isSentinel (terminatedCapabilities entries) entries.length :=
  stopsAt_append h rfl

namespace PdInfoHandle

theorem freeName_cons {name : CString} {live : List (Nat × Block)} {next base : Nat} :
    freeName ⟨next, (base, .name (name.bytes ++ [0])) :: live⟩ base = some ⟨next, live⟩ := by
  have hwalk : walkTo (· == (0 : UInt8)) (name.bytes ++ [0]) 0 = some name.bytes.length := by
    refine (stopsAt_append (fun a ha => ?_) rfl).walkTo
    exact beq_false_of_ne (fun h => name.no_nul (h ▸ ha))
  simp only [freeName, Heap.read?_cons, hwalk, Option.bind_some]
  exact Heap.free_cons (by simp [Block.size])

/-- **The array is given back with the length it was allocated with.** -/
theorem freeCaps_cons {entries : List OsdpPdCap} {live : List (Nat × Block)} {next base : Nat}
    (h : ∀ e ∈ entries, isSentinel e = false) :
    freeCaps ⟨next, (base, .caps (terminatedCapabilities entries)) :: live⟩ base =
      some ⟨next, live⟩ := by
  simp only [freeCaps, Heap.read?_cons, (stopsAt_terminated h).walkTo, Option.bind_some]
  exact Heap.free_cons (by simp [Block.size, terminatedCapabilities])

theorem freeKey_cons {key : Vector UInt8 16} {live : List (Nat × Block)} {next base : Nat} :
    freeKey ⟨next, (base, .key key) :: live⟩ base = some ⟨next, live⟩ :=
  Heap.free_cons rfl

/-- A pointer of the handle is given back as it was taken: nothing for null, else the block. -/
theorem unlessNull_allocSome {give : Heap Block → Nat → Option (Heap Block)} {heap : Heap Block}
    {block? : Option Block} {next : Nat} (hgive : ∀ block live base, block? = some block →
      give ⟨next, (base, block) :: live⟩ base = some ⟨next, live⟩) :
    unlessNull (heap.allocSome block?).1 give ⟨next, (heap.allocSome block?).2.live⟩ =
      some ⟨next, heap.live⟩ := by
  cases block? with
  | none => rfl
  | some block => exact hgive block heap.live heap.next rfl

/-- **The drop gives back all the handle took**, each block with its own size. -/
theorem drop_fromInfo {info : PdInfo} (h : ∀ e ∈ info.cap, isSentinel e = false)
    (heap : Heap Block) : ∃ next,
    drop (fromInfo info heap).1 (fromInfo info heap).2 = some ⟨next, heap.live⟩ := by
  let key := heap.allocSome (info.scbk.map .key)
  let caps := key.2.allocSome (capsOf info)
  let next := caps.2.next + 1
  have hname : unlessNull (fromInfo info heap).1.name freeName (fromInfo info heap).2 =
      some ⟨next, caps.2.live⟩ := freeName_cons
  have hcaps : unlessNull caps.1 freeCaps ⟨next, caps.2.live⟩ = some ⟨next, key.2.live⟩ := by
    apply unlessNull_allocSome
    intro block live base hblock
    rw [capsOf] at hblock
    split at hblock
    · cases hblock
      exact freeCaps_cons h
    · cases hblock
  have hkey : unlessNull key.1 freeKey ⟨next, key.2.live⟩ = some ⟨next, heap.live⟩ := by
    apply unlessNull_allocSome
    intro block live base hblock
    obtain ⟨k, -, rfl⟩ := Option.map_eq_some_iff.1 hblock
    exact freeKey_cons
  refine ⟨next, ?_⟩
  show (unlessNull _ freeName _).bind (fun heap => (unlessNull caps.1 freeCaps heap).bind
    (unlessNull key.1 freeKey)) = _
  rw [hname, Option.bind_some, hcaps, Option.bind_some, hkey]

/-- The pointer to the capabilities is null exactly when there are none. -/
theorem cap_eq_none_iff {info : PdInfo} {heap : Heap Block} :
    (fromInfo info heap).1.cap = none ↔ info.cap = [] := by
  show ((heap.allocSome (info.scbk.map .key)).2.allocSome (capsOf info)).1 = none ↔ _
  cases hcap : info.cap with
  | nil => simp [capsOf, hcap, Heap.allocSome]
  | cons entry rest => simp [capsOf, hcap, Heap.allocSome]

/-- What the pointer to the capabilities points to. -/
theorem read?_cap {info : PdInfo} {heap : Heap Block} {base : Nat}
    (h : (fromInfo info heap).1.cap = some base) :
    (fromInfo info heap).2.read? base = some (.caps (terminatedCapabilities info.cap)) := by
  have hne : info.cap ≠ [] := by
    intro hnil
    rw [cap_eq_none_iff.2 hnil] at h
    cases h
  have hblock : capsOf info = some (.caps (terminatedCapabilities info.cap)) := by
    rw [capsOf, if_pos (by simpa using hne)]
  let key := heap.allocSome (info.scbk.map .key)
  have hbase : (key.2.allocSome (capsOf info)).1 = some base := h
  show ((key.2.allocSome (capsOf info)).2.alloc _).2.read? base = _
  rw [hblock] at hbase ⊢
  obtain rfl : key.2.next = base := Option.some.inj hbase
  rw [Heap.read?_alloc_of_ne]
  · exact Heap.read?_cons
  · show key.2.next ≠ key.2.next + 1
    omega

end PdInfoHandle

/-- What becomes of the capabilities `added` between a handle's making, in `before`, and its drop,
    in `after`. -/
structure WalkedBack (added : List Capability) (before : Heap Block) (handle : PdInfoHandle)
    (after : Heap Block) : Prop where
  null_iff : handle.cap = none ↔ added = []
  /-- What the pointer points to: the capabilities and the terminator. -/
  array : ∀ base, handle.cap = some base →
    after.read? base = some (.caps (added.map Capability.intoRaw ++ [sentinelCap]))
  /-- Whoever walks to the sentinel stops at the terminator. -/
  stops : StopsAt isSentinel (added.map Capability.intoRaw ++ [sentinelCap]) added.length
  /-- So does the loop of the drop, which finds the length that was allocated. -/
  walk : (walkTo isSentinel (added.map Capability.intoRaw ++ [sentinelCap]) 0).map (· + 1) =
    some (added.map Capability.intoRaw ++ [sentinelCap]).length
  /-- The drop runs to its end and leaves the heap as it was found. -/
  dropped : ∃ heap, handle.drop after = some heap ∧ heap.live = before.live

/-- **The capability array is walked back exactly**, whatever calls a builder got. -/
theorem capability_array_walked_back (calls : List BuilderCall) (info : PdInfo)
    (h : PdInfoBuilder.chain calls = .ok info) (heap : Heap Block) :
    (∀ entry ∈ info.cap, entry.functionCode ≠ OSDP_PD_CAP_SENTINEL) ∧
    info.cap = (calls.flatMap BuilderCall.added).map Capability.intoRaw ∧
    info.capabilities = calls.flatMap BuilderCall.added ∧
    WalkedBack (calls.flatMap BuilderCall.added) heap (PdInfoHandle.fromInfo info heap).1
      (PdInfoHandle.fromInfo info heap).2 := by
  have hcap := PdInfoBuilder.cap_of_chain h
  have hentry : ∀ entry ∈ info.cap, isSentinel entry = false := by
    intro entry hmem
    rw [hcap] at hmem
    exact isSentinel_of_mem hmem
  have hlen : info.cap.length = (calls.flatMap BuilderCall.added).length := by
    rw [hcap, List.length_map]
  have hstops := stopsAt_terminated hentry
  refine ⟨fun entry hmem heq => ?_, hcap, PdInfo.capabilities_eq hcap, ?_⟩
  · have hfalse := hentry entry hmem
    rw [isSentinel, heq] at hfalse
    cases hfalse
  rw [terminatedCapabilities, hlen, hcap] at hstops
  refine ⟨?_, ?_, hstops, ?_, ?_⟩
  · rw [PdInfoHandle.cap_eq_none_iff, hcap, List.map_eq_nil_iff]
  · intro base hbase
    rw [PdInfoHandle.read?_cap hbase, terminatedCapabilities, hcap]
  · rw [hstops.walkTo]
    simp
  · obtain ⟨next, hdrop⟩ := PdInfoHandle.drop_fromInfo hentry heap
    exact ⟨_, hdrop, rfl⟩

theorem capability_array_walked_back_door : ∃ info,
    PdInfoBuilder.chain [.capability ⟨.communicationSecurity, 1, 1⟩, .flag 2,
      .capabilities [⟨.ledControl, 1, 4⟩, ⟨.osdpVersion, 2, 0⟩]] = .ok info ∧
    info.capabilities =
      [⟨.communicationSecurity, 1, 1⟩, ⟨.ledControl, 1, 4⟩, ⟨.osdpVersion, 2, 0⟩] := by
  have hchain : ∃ info, PdInfoBuilder.chain [.capability ⟨.communicationSecurity, 1, 1⟩, .flag 2,
      .capabilities [⟨.ledControl, 1, 4⟩, ⟨.osdpVersion, 2, 0⟩]] = .ok info := ⟨_, rfl⟩
  obtain ⟨info, h⟩ := hchain
  exact ⟨info, h, (capability_array_walked_back _ info h {}).2.2.1⟩

end LibOsdp
