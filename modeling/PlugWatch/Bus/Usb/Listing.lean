import PlugWatch.Bus.Usb

/-! # The device listing

  The devices on the bus with what they tell about themselves. They are all found first; then each
  is opened in turn.
-/

namespace PlugWatch

namespace UsbBus

/-- The lines about a device: its device line with the names of maker and product, then where it
    sits and how fast it is. -/
def listingLines (s : Sighting) (u : UsbDevice) (names : Option String × Option String) :
    List String :=
  let maker := names.1.getD "Unknown Manufacturer"
  let product := names.2.getD "Unknown Product"
  let bus := Numeral.decimal 3 u.bus.toNat
  let address := Numeral.decimal 3 u.address.toNat
  [s!"  {s.device.line} - {maker} {product}",
    s!"      Bus {bus} Device {address} Speed: {u.speed.name}", ""]

/-- The lines about devices. -/
def listingOf (b : UsbBus) : List Sighting → List String
  | [] => []
  | s :: ss =>
    let (names, b) := b.names s.slot
    listingLines s (b.slots s.slot) names ++ b.listingOf ss

/-- The listing of a bus whose devices were found. -/
def listing (b : UsbBus) (found : List Sighting) : List String :=
  if found = [] then ["No USB devices found."]
  else s!"Found {found.length} USB device(s):" :: "" :: b.listingOf found

end UsbBus

end PlugWatch
