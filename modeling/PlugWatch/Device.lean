import PlugWatch.Text.Numeral

/-! # Devices

  A device on the bus: its **id**, built from bus number and address, and its **descriptor**, the
  three fields that filters look at. The device line is the text under which a device is reported.
-/

namespace PlugWatch

/-! ## Identity -/

/-- Where a device sits: the bus number above the lowest eight bits, the address in them. -/
structure DeviceId where
  val : UInt32
  deriving DecidableEq, Repr

namespace DeviceId

/-- The id of the device at an address of a bus. -/
def ofBusAddress (bus address : UInt8) : DeviceId :=
  ⟨bus.toUInt32 <<< 8 ||| address.toUInt32⟩

/-- The part above the lowest eight bits. -/
def busPart (id : DeviceId) : UInt32 :=
  id.val >>> 8

/-- The lowest eight bits. -/
def addressPart (id : DeviceId) : UInt32 :=
  id.val &&& 0xFF

/-- Bus part and address, in at least three decimal digits each. -/
def text (id : DeviceId) : String :=
  s!"{Numeral.decimal 3 id.busPart.toNat}:{Numeral.decimal 3 id.addressPart.toNat}"

end DeviceId

/-! ## Description -/

/-- The fields of a device that filters look at. -/
structure Descriptor where
  vendor : UInt16
  product : UInt16
  classCode : UInt8
  deriving DecidableEq, Repr

/-- A device as it is reported, queued and remembered. -/
structure Device where
  id : DeviceId
  descriptor : Descriptor
  deriving DecidableEq, Repr

/-- The device line: id, vendor and product in four hexadecimal digits, class in two. -/
def Device.line (d : Device) : String :=
  let v := Numeral.hex 4 d.descriptor.vendor.toNat
  let p := Numeral.hex 4 d.descriptor.product.toNat
  let c := Numeral.hex 2 d.descriptor.classCode.toNat
  s!"{d.id.text} {v}:{p} class 0x{c}"

/-- A device for developers: its fields by name, as numbers. -/
def Device.debug (d : Device) : String :=
  let v := s!"vendor_id: {d.descriptor.vendor}"
  let p := s!"product_id: {d.descriptor.product}"
  let c := s!"class_code: {d.descriptor.classCode}"
  let descriptor := s!"DeviceDescriptor \x7b {v}, {p}, {c} \x7d"
  s!"UsbDevice \x7b id: DeviceId({d.id.val}), descriptor: {descriptor} \x7d"

/-- An order in which devices are gone through. -/
structure Device.Order where
  /-- The devices of a list, one after the other as they come in this order. -/
  arrange : List Device → List Device
  arrange_perm : ∀ ds, (arrange ds).Perm ds

/-- As they stand in the list. -/
def Device.Order.asListed : Device.Order where
  arrange ds := ds
  arrange_perm := .refl

/-! ## Handles -/

/-- The number under which a registration is known to the client that made it. -/
structure Handle where
  val : UInt32
  deriving DecidableEq, Repr

namespace Handle

instance : LT Handle := ⟨fun a b => a.val < b.val⟩

instance (a b : Handle) : Decidable (a < b) :=
  inferInstanceAs (Decidable (a.val < b.val))

/-- The number behind a hash sign. -/
def text (h : Handle) : String :=
  s!"#{h.val.toNat}"

end Handle

end PlugWatch
