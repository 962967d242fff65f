/-
**The scan of the PCI buses: `pci_scan_bus`.**

The scan goes through the slots and functions of a bus, records each function in `pci_device_vector`, and at a bridge goes into
its secondary bus. That a bus was scanned before is not looked at: a bridge is passed over only where its secondary bus is 0 or
greater than its subordinate bus.

* `pciScanBus_visit` — the scan is the walk of a network whose nodes are the buses;
* `pciScanBus_scansOnce_iff` — **it ends and records each function that can be reached once, exactly when no two of their
  bridges name the same bus with functions**;
* `pciScanBus_ownBus` — a bridge that names its own bus.
-/

import PeachOS.Pci.Bars
import PeachOS.Lib.TreeWalk
import Mathlib.Data.Option.Defs

namespace PeachOS

/-! ### Constants -/

/-- `PCI_HEADER_VENDOR_OFFSET`. -/
abbrev pciHeaderVendorOffset : BitVec 8 := 0x00

/-- `PCI_HEADER_DEVICE_OFFSET`. -/
abbrev pciHeaderDeviceOffset : BitVec 8 := 0x02

/-- `PCI_HEADER_REVISION_ID_OFFSET`. -/
abbrev pciHeaderRevisionIdOffset : BitVec 8 := 0x08

/-- `PCI_BRIDGE_PRIMARY_BUS_OFFSET`. -/
abbrev pciBridgePrimaryBusOffset : BitVec 8 := 0x18

/-- `PCI_BRIDGE_SECONDARY_BUS_OFFSET`. -/
abbrev pciBridgeSecondaryBusOffset : BitVec 8 := 0x19

/-- `PCI_BRIDGE_SUBORDINATE_BUS_OFFSET`. -/
abbrev pciBridgeSubordinateBusOffset : BitVec 8 := 0x1A

/-! ### The scan -/

/-- `struct pci_class_code`. -/
structure PciClassCode where
  base : BitVec 32
  subclass : BitVec 32
deriving DecidableEq

/-- `struct pci_device`. The bridge above it is given by its number in `pci_device_vector`. -/
structure PciDevice where
  addr : PciAddress
  bars : Nat → PciDeviceBar
  vendor : BitVec 16
  deviceId : BitVec 16
  classCode : PciClassCode
  isBridge : Bool
  primaryBus : BitVec 8
  secondaryBus : BitVec 8
  subordinateBus : BitVec 8
  parentBridge : Option Nat

/-- The registers, and what is in `pci_device_vector`. -/
structure PciScan where
  space : ConfigSpace
  devices : List PciDevice

/-- A device as it is recorded, up to the registers of a bridge. -/
def pciNewDevice (space : ConfigSpace) (fn : PciAddress) (vendor : BitVec 16) (parentBridge : Option Nat) :
    PciDevice × ConfigSpace :=
  let deviceId := pciCfgReadWord space fn pciHeaderDeviceOffset
  let classreg := pciCfgReadDword space fn pciHeaderRevisionIdOffset
  let sized := pciSizeBars space fn noBars
  ({ addr := fn, bars := sized.bars, vendor := vendor, deviceId := deviceId
     classCode := ⟨(classreg >>> 24) &&& 0xFF, (classreg >>> 16) &&& 0xFF⟩
     isBridge := false, primaryBus := fn.bus, secondaryBus := 0, subordinateBus := 0, parentBridge := parentBridge }, sized.space)

/-- The registers of a bridge. -/
def pciReadBridge (space : ConfigSpace) (device : PciDevice) : PciDevice :=
  { device with
    isBridge := true
    primaryBus := pciCfgReadByte space device.addr pciBridgePrimaryBusOffset
    secondaryBus := pciCfgReadByte space device.addr pciBridgeSecondaryBusOffset
    subordinateBus := pciCfgReadByte space device.addr pciBridgeSubordinateBusOffset }

section Loops

variable (scanBus : BitVec 8 → Option Nat → PciScan → Option PciScan) (parentBridge : Option Nat)

/-- One turn of the inner loop of `pci_scan_bus`. The vector has the device by its pointer, and so its bridge registers are
recorded too. -/
def pciScanFunc (bus dev : BitVec 8) (scan : PciScan) (func : Nat) : Option PciScan :=
  let fn : PciAddress := ⟨bus, dev, .ofNat 8 func⟩
  let vendor := pciCfgReadWord scan.space fn pciHeaderVendorOffset
  if vendor = 0xFFFF then some scan
  else
    let (device, space) := pciNewDevice scan.space fn vendor parentBridge
    let number := scan.devices.length
    let hdr := pciCfgReadByte space fn pciHeaderHeaderTypeOffset &&& 0x7F
    if hdr = 0x01 then
      let device := pciReadBridge space device
      let scan : PciScan := ⟨space, scan.devices ++ [device]⟩
      if device.secondaryBus ≠ 0 ∧ device.secondaryBus ≤ device.subordinateBus then
        scanBus device.secondaryBus (some number) scan
      else some scan
    else some ⟨space, scan.devices ++ [device]⟩

/-- `func_limit`. -/
def pciFuncLimit (hdr0 : BitVec 8) : Nat := if hdr0 &&& 0x80#8 ≠ 0 then 8 else 1

/-- One turn of the outer loop of `pci_scan_bus`. -/
def pciScanDev (bus : BitVec 8) (scan : PciScan) (dev : Nat) : Option PciScan :=
  let fn : PciAddress := ⟨bus, .ofNat 8 dev, 0⟩
  let vendor0 := pciCfgReadWord scan.space fn pciHeaderVendorOffset
  if vendor0 = 0xFFFF then some scan
  else
    let hdr0 := pciCfgReadByte scan.space fn pciHeaderHeaderTypeOffset
    (List.range (pciFuncLimit hdr0)).foldlM (pciScanFunc scanBus parentBridge bus fn.slot) scan

end Loops

/-- `pci_scan_bus`; `none` where its calls go deeper than a depth. -/
def pciScanBus : Nat → BitVec 8 → Option Nat → PciScan → Option PciScan
  | 0, _, _, _ => none
  | depth + 1, bus, parentBridge, scan => (List.range 32).foldlM (pciScanDev (pciScanBus depth) parentBridge bus) scan

/-! ### The buses -/

section Buses

variable (space : ConfigSpace)

/-- The functions of a slot: none where its first one is missing, and no more than it has by its header. -/
def slotFunctions (bus dev : BitVec 8) : List PciAddress :=
  if pciCfgReadWord space ⟨bus, dev, 0⟩ pciHeaderVendorOffset = 0xFFFF then []
  else ((List.range (pciFuncLimit (pciCfgReadByte space ⟨bus, dev, 0⟩ pciHeaderHeaderTypeOffset))).map fun func =>
    (⟨bus, dev, .ofNat 8 func⟩ : PciAddress)).filter fun fn => pciCfgReadWord space fn pciHeaderVendorOffset ≠ 0xFFFF

/-- The functions of a bus. -/
def busFunctions (bus : BitVec 8) : List PciAddress :=
  (List.range 32).flatMap fun dev => slotFunctions space bus (.ofNat 8 dev)

/-- The bus below a function: the secondary bus of a bridge, where its registers are programmed. -/
def busBelow (fn : PciAddress) : Option (BitVec 8) :=
  let secondary := pciCfgReadByte space fn pciBridgeSecondaryBusOffset
  if pciCfgReadByte space fn pciHeaderHeaderTypeOffset &&& 0x7F = 0x01 ∧ secondary ≠ 0 ∧
      secondary ≤ pciCfgReadByte space fn pciBridgeSubordinateBusOffset then some secondary
  else none

variable {space}

theorem mem_slotFunctions {bus dev : BitVec 8} {fn : PciAddress} (isIn : fn ∈ slotFunctions space bus dev) :
    fn.bus = bus ∧ fn.slot = dev := by
  unfold slotFunctions at isIn
  split at isIn
  · exact absurd isIn List.not_mem_nil
  · obtain ⟨func, -, rfl⟩ := List.mem_map.mp (List.mem_of_mem_filter isIn)
    exact ⟨rfl, rfl⟩

theorem mem_busFunctions {bus : BitVec 8} {fn : PciAddress} (isIn : fn ∈ busFunctions space bus) : fn.bus = bus := by
  obtain ⟨dev, -, isIn⟩ := List.mem_flatMap.mp isIn
  exact (mem_slotFunctions isIn).1

/-- Numbers that fit are told apart by their eight bits. -/
theorem ofNat_inj {i j : Nat} (first : i < 256) (second : j < 256) (same : BitVec.ofNat 8 i = BitVec.ofNat 8 j) : i = j := by
  have numbers := congrArg BitVec.toNat same
  rw [BitVec.toNat_ofNat, BitVec.toNat_ofNat] at numbers
  omega

theorem pciFuncLimit_le (hdr0 : BitVec 8) : pciFuncLimit hdr0 ≤ 8 := by
  unfold pciFuncLimit
  split <;> decide

theorem slotFunctions_nodup (bus dev : BitVec 8) : (slotFunctions space bus dev).Nodup := by
  unfold slotFunctions
  split
  · exact List.nodup_nil
  · refine List.Nodup.filter _ (List.Nodup.map_on (fun i isIn j isIn' same => ?_) List.nodup_range)
    have few := pciFuncLimit_le (pciCfgReadByte space ⟨bus, dev, 0⟩ pciHeaderHeaderTypeOffset)
    rw [List.mem_range] at isIn isIn'
    exact ofNat_inj (by omega) (by omega) (PciAddress.mk.inj same).2.2

theorem busFunctions_nodup (bus : BitVec 8) : (busFunctions space bus).Nodup := by
  refine List.nodup_flatMap.mpr ⟨fun dev _ => slotFunctions_nodup _ _, ?_⟩
  refine (List.nodup_range (n := 32)).imp_of_mem fun {i j} isIn isIn' different => ?_
  rw [List.mem_range] at isIn isIn'
  intro fn first second
  exact different (ofNat_inj (by omega) (by omega) ((mem_slotFunctions first).2.symm.trans (mem_slotFunctions second).2))

variable (space)

/-- The buses, their functions and the buses below them, from bus 0 on. -/
def pciNetwork : Network (BitVec 8) PciAddress where
  root := 0
  items := busFunctions space
  next := busBelow space
  items_nodup := busFunctions_nodup
  node_unique := fun first second => (mem_busFunctions first).symm.trans (mem_busFunctions second)
  root_unled := fun fn => by
    unfold busBelow
    dsimp only
    split
    · next named => exact fun isRoot => named.2.1 (Option.some_injective _ isRoot)
    · exact fun isRoot => by cases isRoot

end Buses

/-! ### The scan is the walk -/

/-- The registers are as they were, and the functions recorded are those that were found. -/
def ScanOf (space : ConfigSpace) (scan : PciScan) (found : List PciAddress) : Prop :=
  scan.space = space ∧ scan.devices.map (·.addr) = found

/-- Loops whose turns agree. -/
theorem foldlM_rel {σ τ α : Type} {R : σ → τ → Prop} {step : σ → α → Option σ} {step' : τ → α → Option τ} {items : List α}
    (turn : ∀ i ∈ items, ∀ s t, R s t → Option.Rel R (step s i) (step' t i)) {s : σ} {t : τ} (agree : R s t) :
    Option.Rel R (items.foldlM step s) (items.foldlM step' t) := by
  induction items generalizing s t with
  | nil => exact Option.Rel.some agree
  | cons item items ih =>
      rw [List.foldlM_cons, List.foldlM_cons]
      have first := turn item List.mem_cons_self s t agree
      cases isStep : step s item with
      | none =>
          rw [isStep] at first
          cases isStep' : step' t item with
          | none => exact Option.Rel.none
          | some t' =>
              rw [isStep'] at first
              cases first
      | some s' =>
          rw [isStep] at first
          cases isStep' : step' t item with
          | none =>
              rw [isStep'] at first
              cases first
          | some t' =>
              rw [isStep'] at first
              cases first with
              | some agree => exact ih (fun i isIn => turn i (List.mem_cons_of_mem _ isIn)) agree

section Visit

variable {space : ConfigSpace} {scanBus : BitVec 8 → Option Nat → PciScan → Option PciScan}
  {visitNext : BitVec 8 → List PciAddress → Option (List PciAddress)}

/-- **One function** is entered as an item of the network, where there is one. -/
theorem pciScanFunc_enter (below : ∀ bus parentBridge scan found, ScanOf space scan found →
      Option.Rel (ScanOf space) (scanBus bus parentBridge scan) (visitNext bus found))
    (parentBridge : Option Nat) (bus dev : BitVec 8) (func : Nat) {scan : PciScan} {found : List PciAddress}
    (agree : ScanOf space scan found) :
    Option.Rel (ScanOf space) (pciScanFunc scanBus parentBridge bus dev scan func)
      (if pciCfgReadWord space ⟨bus, dev, .ofNat 8 func⟩ pciHeaderVendorOffset ≠ 0xFFFF then
        (pciNetwork space).enter visitNext found ⟨bus, dev, .ofNat 8 func⟩ else some found) := by
  obtain ⟨rfl, rfl⟩ := agree
  unfold pciScanFunc
  dsimp only
  by_cases missing : pciCfgReadWord scan.space ⟨bus, dev, .ofNat 8 func⟩ pciHeaderVendorOffset = 0xFFFF
  · rw [if_pos missing, if_neg (not_not.mpr missing)]
    exact Option.Rel.some ⟨rfl, rfl⟩
  · have kept : (pciNewDevice scan.space ⟨bus, dev, .ofNat 8 func⟩
        (pciCfgReadWord scan.space ⟨bus, dev, .ofNat 8 func⟩ pciHeaderVendorOffset) parentBridge).2 = scan.space :=
      pciSizeBars_space _ _ _
    have recorded : ∀ device : PciDevice, device.addr = ⟨bus, dev, .ofNat 8 func⟩ →
        ScanOf scan.space ⟨scan.space, scan.devices ++ [device]⟩ (scan.devices.map (·.addr) ++ [⟨bus, dev, .ofNat 8 func⟩]) := by
      intro device isAt
      refine ⟨rfl, ?_⟩
      rw [List.map_append, List.map_singleton, isAt]
    rw [if_neg missing, if_pos missing, kept]
    by_cases isBridge : pciCfgReadByte scan.space ⟨bus, dev, .ofNat 8 func⟩ pciHeaderHeaderTypeOffset &&& 0x7F = 0x01
    · rw [if_pos isBridge]
      split
      · next named =>
          have next : busBelow scan.space ⟨bus, dev, .ofNat 8 func⟩ = some _ := if_pos ⟨isBridge, named⟩
          rw [Network.enter_some (N := pciNetwork scan.space) next]
          exact below _ _ _ _ (recorded _ rfl)
      · next unnamed =>
          have next : busBelow scan.space ⟨bus, dev, .ofNat 8 func⟩ = none := if_neg fun both => unnamed both.2
          rw [Network.enter_none (N := pciNetwork scan.space) next]
          exact Option.Rel.some (recorded _ rfl)
    · have next : busBelow scan.space ⟨bus, dev, .ofNat 8 func⟩ = none := if_neg fun both => isBridge both.1
      rw [if_neg isBridge, Network.enter_none (N := pciNetwork scan.space) next]
      exact Option.Rel.some (recorded _ rfl)

/-- **One slot.** -/
theorem pciScanDev_visit (below : ∀ bus parentBridge scan found, ScanOf space scan found →
      Option.Rel (ScanOf space) (scanBus bus parentBridge scan) (visitNext bus found))
    (parentBridge : Option Nat) (bus : BitVec 8) (dev : Nat) {scan : PciScan} {found : List PciAddress}
    (agree : ScanOf space scan found) :
    Option.Rel (ScanOf space) (pciScanDev scanBus parentBridge bus scan dev)
      ((slotFunctions space bus (.ofNat 8 dev)).foldlM ((pciNetwork space).enter visitNext) found) := by
  have same := agree.1
  unfold pciScanDev slotFunctions
  dsimp only
  rw [same]
  split
  · exact Option.Rel.some agree
  · rw [List.foldlM_filter, List.foldlM_map]
    refine foldlM_rel (fun func _ scan found agree => ?_) agree
    have entered := pciScanFunc_enter below parentBridge bus (.ofNat 8 dev) func agree
    simpa only [decide_eq_true_iff, Option.pure_def] using entered

end Visit

/-- The items of a list of lists, one list after the other. -/
theorem foldlM_flatMap {σ α γ : Type} {step : σ → γ → Option σ} (items : List α) (parts : α → List γ) (s : σ) :
    (items.flatMap parts).foldlM step s = items.foldlM (fun s i => (parts i).foldlM step s) s := by
  induction items generalizing s with
  | nil => rfl
  | cons item items ih =>
      rw [List.flatMap_cons, List.foldlM_append, List.foldlM_cons]
      exact bind_congr ih

/-- **The scan is the walk of the network**, by induction on how deep its calls go. -/
theorem pciScanBus_visit (space : ConfigSpace) (depth : Nat) (bus : BitVec 8) (parentBridge : Option Nat) {scan : PciScan}
    {found : List PciAddress} (agree : ScanOf space scan found) :
    Option.Rel (ScanOf space) (pciScanBus depth bus parentBridge scan) ((pciNetwork space).visit depth bus found) := by
  induction depth generalizing bus parentBridge scan found with
  | zero => exact Option.Rel.none
  | succ depth ih =>
      have below := fun bus parentBridge scan found agree => @ih bus parentBridge scan found agree
      unfold pciScanBus Network.visit
      show Option.Rel _ _ ((busFunctions space bus).foldlM _ found)
      unfold busFunctions
      rw [foldlM_flatMap]
      exact foldlM_rel (fun dev _ scan found agree => pciScanDev_visit below parentBridge bus dev agree) agree

/-! ### Each function once -/

/-- **`pci_scan_bus(0, NULL)` ends, and `pci_device_vector` has every function that can be reached from bus 0, once.** -/
def PciScansOnce (space : ConfigSpace) : Prop := ∃ depth scan, pciScanBus depth 0 none ⟨space, []⟩ = some scan ∧
  (scan.devices.map (·.addr)).Nodup ∧ ∀ fn, fn ∈ scan.devices.map (·.addr) ↔ (pciNetwork space).Found fn

theorem pciScansOnce_iff_visitsOnce (space : ConfigSpace) : PciScansOnce space ↔ (pciNetwork space).VisitsOnce := by
  have walk := fun depth => @pciScanBus_visit space depth 0 none ⟨space, []⟩ [] ⟨rfl, rfl⟩
  constructor
  · intro ⟨depth, scan, scanned, nodup, exact⟩
    have agree := walk depth
    rw [scanned] at agree
    cases visited : (pciNetwork space).visit depth 0 [] with
    | none =>
        rw [visited] at agree
        cases agree
    | some found =>
        rw [visited] at agree
        cases agree with
        | some agree => exact ⟨depth, found, visited, agree.2 ▸ nodup, agree.2 ▸ exact⟩
  · intro ⟨depth, found, visited, nodup, exact⟩
    have agree := walk depth
    have visited : (pciNetwork space).visit depth 0 [] = some found := visited
    rw [visited] at agree
    cases scanned : pciScanBus depth 0 none ⟨space, []⟩ with
    | none =>
        rw [scanned] at agree
        cases agree
    | some scan =>
        rw [scanned] at agree
        cases agree with
        | some agree => exact ⟨depth, scan, scanned, agree.2.symm ▸ nodup, agree.2.symm ▸ exact⟩

/-- **The scan ends and records each function that can be reached once, exactly when no two of their bridges name the same bus
with functions.** -/
theorem pciScanBus_scansOnce_iff (space : ConfigSpace) : PciScansOnce space ↔ (pciNetwork space).LedOnce := by
  have : Finite (BitVec 8) := Finite.of_injective BitVec.toFin fun first second same => BitVec.eq_of_toFin_eq same
  rw [pciScansOnce_iff_visitsOnce]
  exact Network.visitsOnce_iff

/-! ### A bridge that names its own bus -/

/-- A device that is a bridge to bus 1. -/
def bridgeRegisters (address : BitVec 32) (fn : PciAddress) : Option PciRegister :=
  if address = pciCfgAddrLegacy fn 0x00 then some ⟨0x00011AF4, 0⟩
  else if address = pciCfgAddrLegacy fn 0x0C then some ⟨0x00010000, 0⟩
  else if address = pciCfgAddrLegacy fn 0x18 then some ⟨0x00010100, 0x00FFFFFF⟩
  else none

/-- A bridge on bus 0 and one on bus 1, both to bus 1; all other registers read as ones. -/
def ownBusSpace : ConfigSpace := fun address =>
  ((bridgeRegisters address ⟨0, 1, 0⟩).or (bridgeRegisters address ⟨1, 0, 0⟩)).getD ⟨0xFFFFFFFF, 0⟩

theorem mem_ownBusSpace (dev : Fin 32) (bus : Fin 2) (isBridge : dev.val + bus.val = 1) :
    (⟨.ofNat 8 bus, .ofNat 8 dev, 0⟩ : PciAddress) ∈ slotFunctions ownBusSpace (.ofNat 8 bus) (.ofNat 8 dev) := by
  revert isBridge
  revert dev bus
  decide

/-- **The scan does not end there with each function recorded once.** -/
theorem pciScanBus_ownBus : ¬ PciScansOnce ownBusSpace := by
  intro scans
  have once := ((pciScansOnce_iff_visitsOnce ownBusSpace).mp scans).ledOnce
  have first : (⟨0, 1, 0⟩ : PciAddress) ∈ busFunctions ownBusSpace 0 :=
    List.mem_flatMap.mpr ⟨1, by decide, mem_ownBusSpace 1 0 rfl⟩
  have second : (⟨1, 0, 0⟩ : PciAddress) ∈ busFunctions ownBusSpace 1 :=
    List.mem_flatMap.mpr ⟨0, by decide, mem_ownBusSpace 0 1 rfl⟩
  have below : busBelow ownBusSpace ⟨0, 1, 0⟩ = some 1 := by decide
  have below' : busBelow ownBusSpace ⟨1, 0, 0⟩ = some 1 := by decide
  have reaches : (pciNetwork ownBusSpace).Reaches 1 := Network.Reaches.step Network.Reaches.root first below
  have same := once ⟨0, 1, 0⟩ ⟨1, 0, 0⟩ 1 ⟨0, Network.Reaches.root, first⟩ ⟨1, reaches, second⟩ below below'
    (List.ne_nil_of_mem second)
  exact absurd same (by decide)

end PeachOS
