import PlugWatch.Proofs.Patterns

/-! # Device lines tell devices apart

  The line of a device is all that a watch leaves of it. It is four words with blanks between them:
  the id, two decimal numbers with a colon between them; vendor and product, two hexadecimal numbers
  likewise; a word that is always the same; and the class behind its mark `0x`.

  The numbers are filled up with zeros to a least width and may have more digits than that, so where
  one of them ends is told by what stands between them, not by counting. A line is **read back**
  word by word, and therefore it belongs to one device.
-/

namespace PlugWatch

open Numeral

/-! ## Reading -/

/-- The two numbers in a text that has a colon between them. -/
def Numeral.readPair (base : Nat) (cs : List Char) : Option (Nat × Nat) :=
  match cs.splitOn ':' with
  | [first, second] => return (← read base first, ← read base second)
  | _ => none

/-- The id with these parts. -/
def DeviceId.ofParts (bus address : Nat) : DeviceId :=
  ⟨UInt32.ofNat (256 * bus + address)⟩

/-- The part of a device line that is the text of the id: all that stands before the first blank. -/
def Device.idPart (line : String) : List Char :=
  line.toList.takeWhile (· != ' ')

/-- The device that a line is about. -/
def Device.ofLine? (line : String) : Option Device :=
  match line.toList.splitOn ' ' with
  | [id, names, ['c', 'l', 'a', 's', 's'], '0' :: 'x' :: code] => do
    let (bus, address) ← readPair 10 id
    let (vendor, product) ← readPair 16 names
    let classCode ← read 16 code
    let descriptor := ⟨UInt16.ofNat vendor, UInt16.ofNat product, UInt8.ofNat classCode⟩
    return { id := .ofParts bus address, descriptor }
  | _ => none

/-! ## Pairs of numbers -/

namespace Numeral

variable {base : Nat}

/-- Two numerals with a colon between them are read back. -/
theorem readPair_padded (hone : 1 < base) (hbase : base ≤ 16) (w w' m n : Nat) :
    readPair base (padded base w m ++ ':' :: padded base w' n) = some (m, n) := by
  have hsplit : (padded base w m ++ ':' :: padded base w' n).splitOn ':' =
      [padded base w m, padded base w' n] := by
    -- Neither numeral has a colon, so the text is split at the one between them.
    have hplain : ∀ cs ∈ [padded base w m, padded base w' n], ':' ∉ cs := by
      simp [notMem_padded hone hbase (by decide : digitValue ':' = none)]
    simpa using List.splitOn_intercalate ':' hplain (by simp)
  rw [readPair, hsplit]
  simp [read_padded hone hbase]

/-- A character that is neither a digit nor a colon is not in a pair of numbers. -/
theorem notMem_pair (hone : 1 < base) (hbase : base ≤ 16) {c : Char} (hc : digitValue c = none)
    (hcolon : c ≠ ':') (w w' m n : Nat) : c ∉ padded base w m ++ ':' :: padded base w' n := by
  simp [notMem_padded hone hbase hc, hcolon]

end Numeral

/-! ## Ids -/

namespace DeviceId

theorem toList_text (id : DeviceId) : id.text.toList =
    padded 10 3 id.busPart.toNat ++ ':' :: padded 10 3 id.addressPart.toNat := by
  show (decimal 3 id.busPart.toNat ++ ":" ++ decimal 3 id.addressPart.toNat).toList = _
  simp [decimal]

theorem readPair_text (id : DeviceId) :
    readPair 10 id.text.toList = some (id.busPart.toNat, id.addressPart.toNat) := by
  rw [toList_text]
  exact readPair_padded (by decide) (by decide) 3 3 _ _

theorem toNat_busPart (id : DeviceId) : id.busPart.toNat = id.val.toNat / 256 := by
  show (id.val >>> 8).toNat = _
  rw [UInt32.toNat_shiftRight]
  exact Nat.shiftRight_eq_div_pow _ 8

theorem toNat_addressPart (id : DeviceId) : id.addressPart.toNat = id.val.toNat % 256 := by
  show (id.val &&& 0xFF).toNat = _
  rw [UInt32.toNat_and]
  exact Nat.and_two_pow_sub_one_eq_mod _ 8

/-- The parts of an id make it up. -/
theorem ofParts_parts (id : DeviceId) : ofParts id.busPart.toNat id.addressPart.toNat = id := by
  rw [ofParts, toNat_busPart, toNat_addressPart, Nat.div_add_mod, UInt32.ofNat_toNat]

/-- The id at an address of a bus has room for both. -/
theorem toNat_ofBusAddress (bus address : UInt8) :
    (ofBusAddress bus address).val.toNat = 256 * bus.toNat + address.toNat := by
  have hbus := bus.toNat_lt
  have haddress : address.toNat < 2 ^ 8 := address.toNat_lt
  show (bus.toUInt32 <<< 8 ||| address.toUInt32).toNat = _
  calc (bus.toUInt32 <<< 8 ||| address.toUInt32).toNat
      = bus.toNat <<< 8 % 2 ^ 32 ||| address.toNat := by
        rw [UInt32.toNat_or, UInt32.toNat_shiftLeft]
        rfl
    _ = bus.toNat <<< 8 ||| address.toNat := by
        -- No bit of the bus is lost at the upper end.
        rw [Nat.mod_eq_of_lt]
        rw [Nat.shiftLeft_eq]
        omega
    _ = bus.toNat <<< 8 + address.toNat := (Nat.shiftLeft_add_eq_or_of_lt haddress _).symm
    _ = 256 * bus.toNat + address.toNat := by
        rw [Nat.shiftLeft_eq, Nat.mul_comm]

theorem text_injective {a b : DeviceId} (h : a.text = b.text) : a = b := by
  have hread : some (a.busPart.toNat, a.addressPart.toNat) =
      some (b.busPart.toNat, b.addressPart.toNat) := by
    rw [← readPair_text, ← readPair_text, h]
  obtain ⟨hbus, haddress⟩ := Prod.mk.inj (Option.some.inj hread)
  rw [← ofParts_parts a, ← ofParts_parts b, hbus, haddress]

end DeviceId

/-! ## Lines -/

namespace Device

/-- Vendor and product, as they stand in a line. -/
def names (d : Device) : List Char :=
  padded 16 4 d.descriptor.vendor.toNat ++ ':' :: padded 16 4 d.descriptor.product.toNat

/-- The words of a line. -/
def words (d : Device) : List (List Char) :=
  [d.id.text.toList, d.names, ['c', 'l', 'a', 's', 's'],
    '0' :: 'x' :: padded 16 2 d.descriptor.classCode.toNat]

theorem toList_line (d : Device) : d.line.toList = [' '].intercalate d.words := by
  have hline : d.line = d.id.text ++ " " ++ hex 4 d.descriptor.vendor.toNat ++ ":" ++
      hex 4 d.descriptor.product.toNat ++ " class 0x" ++
      hex 2 d.descriptor.classCode.toNat := rfl
  simp [hline, hex, words, names]

theorem blank_notMem_words (d : Device) : ∀ cs ∈ d.words, ' ' ∉ cs := by
  have hblank : digitValue ' ' = none := by decide
  have hid : ' ' ∉ d.id.text.toList := by
    rw [DeviceId.toList_text]
    exact notMem_pair (by decide) (by decide) hblank (by decide) 3 3 _ _
  have hnames : ' ' ∉ d.names :=
    notMem_pair (by decide) (by decide) hblank (by decide) 4 4 _ _
  have hcode : ' ' ∉ padded 16 2 d.descriptor.classCode.toNat :=
    notMem_padded (by decide) (by decide) hblank 2 _
  simp [words, hid, hnames, hcode]

theorem splitOn_line (d : Device) : d.line.toList.splitOn ' ' = d.words := by
  rw [toList_line]
  exact List.splitOn_intercalate ' ' d.blank_notMem_words (by simp [words])

/-- A line is **read back**. -/
theorem ofLine?_line (d : Device) : ofLine? d.line = some d := by
  have hnames : readPair 16 d.names =
      some (d.descriptor.vendor.toNat, d.descriptor.product.toNat) :=
    readPair_padded (by decide) (by decide) 4 4 _ _
  have hcode : read 16 (padded 16 2 d.descriptor.classCode.toNat) =
      some d.descriptor.classCode.toNat :=
    read_padded (by decide) (by decide) 2 _
  -- The words are read one by one, and their numbers fit the fields from which they came.
  rw [ofLine?, splitOn_line, words]
  simp [DeviceId.readPair_text, hnames, hcode, DeviceId.ofParts_parts]

theorem line_injective {a b : Device} (h : a.line = b.line) : a = b := by
  have hread : some a = some b := by rw [← ofLine?_line, ← ofLine?_line, h]
  exact Option.some.inj hread

/-- The text of the id ends where the first blank stands. -/
theorem idPart_line (d : Device) : idPart d.line = d.id.text.toList := by
  have hid : ∀ c ∈ d.id.text.toList, (c != ' ') = true := by
    intro c hc
    have hne : c ≠ ' ' := fun heq => d.blank_notMem_words _ (.head _) (heq ▸ hc)
    simpa using hne
  have hline : d.line.toList = d.id.text.toList ++ ' ' :: [' '].intercalate d.words.tail := by
    rw [toList_line]
    simp [words]
  rw [idPart, hline, List.takeWhile_append_of_pos hid]
  simp

/-! ## What a line tells -/

/-- A device is its id and the three fields of its descriptor. -/
theorem eq_iff {a b : Device} : a = b ↔ a.id = b.id ∧
    a.descriptor.vendor = b.descriptor.vendor ∧
    a.descriptor.product = b.descriptor.product ∧
    a.descriptor.classCode = b.descriptor.classCode := by
  obtain ⟨id, vendor, product, code⟩ := a
  obtain ⟨id', vendor', product', code'⟩ := b
  simp

/-- Two devices have the same line exactly if they have the same id and descriptor, and two ids have
    the same text exactly if they are the same. A line is read back, and so are the parts of the id
    in it: for a device at an address of a bus they are that bus and that address. -/
theorem line_identifies :
    (∀ a b : Device, a.line = b.line ↔ a.id = b.id ∧
      a.descriptor.vendor = b.descriptor.vendor ∧
      a.descriptor.product = b.descriptor.product ∧
      a.descriptor.classCode = b.descriptor.classCode) ∧
    (∀ a b : DeviceId, a.text = b.text ↔ a = b) ∧
    (∀ d : Device, ofLine? d.line = some d ∧
      readPair 10 (idPart d.line) = some (d.id.val.toNat / 256, d.id.val.toNat % 256)) ∧
    ∀ (bus address : UInt8) (f : Descriptor),
      readPair 10 (idPart (Device.line ⟨.ofBusAddress bus address, f⟩)) =
        some (bus.toNat, address.toNat) := by
  have hparts (d : Device) : readPair 10 (idPart d.line) =
      some (d.id.val.toNat / 256, d.id.val.toNat % 256) := by
    rw [idPart_line, DeviceId.readPair_text, DeviceId.toNat_busPart, DeviceId.toNat_addressPart]
  refine ⟨?_, ?_, fun d => ⟨ofLine?_line d, hparts d⟩, ?_⟩
  · intro a b
    rw [← eq_iff]
    constructor
    · exact line_injective
    · intro h
      rw [h]
  · intro a b
    constructor
    · exact DeviceId.text_injective
    · intro h
      rw [h]
  · intro bus address f
    have haddress : address.toNat < 256 := address.toNat_lt
    rw [hparts, DeviceId.toNat_ofBusAddress]
    have hbus : (256 * bus.toNat + address.toNat) / 256 = bus.toNat := by omega
    have hrest : (256 * bus.toNat + address.toNat) % 256 = address.toNat := by omega
    rw [hbus, hrest]

/-- A number that needs more digits than its place has takes them. -/
example : line ⟨⟨0xFFFFFFFF⟩, ⟨0x46D, 0xC52B, 3⟩⟩ = "16777215:255 046d:c52b class 0x03" := by
  decide +kernel

end Device

end PlugWatch
