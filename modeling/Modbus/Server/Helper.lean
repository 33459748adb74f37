import Modbus.Core.Types

/-! # Server memory (`modbus/server/server_helper.hpp`)

Addresses and counts are the non-negative values of the source's `int`. Every
vector and table index is checked, and so is every `int` operation that an `int`
address or count can push past its range; a byte index `i + startByte` of the bit
functions cannot get there, since both come from a division by eight. -/
namespace Modbus.Server
open Bytes Checked

def bitMasks : List Byte :=
  [0b00000000, 0b00000001, 0b00000011, 0b00000111, 0b00001111, 0b00011111, 0b00111111, 0b01111111,
    0b11111111]

def createRequestBitMap (startAddress numRegisters : Nat) : Except Fault Buffer := do
  if numRegisters = 0 then
    return []
  else
    let startBit := startAddress % 8
    let numBits ← int (numRegisters + startBit)
    let numBytes := numBits / 8 + 1
    let numHighBits := if numBytes = 1 then numRegisters else numRegisters % 8 + startBit
    let requestBitmap := List.replicate numBytes 0#8
    let requestBitmap ← loop 0 (numBytes - 1) (fun i bm => set bm i 0xFF#8) requestBitmap
    let lastByte ← get bitMasks numHighBits
    let requestBitmap ← set requestBitmap (numBytes - 1) lastByte
    modify requestBitmap 0 (· <<< startBit)

def legalAddress (accessBitMask requestBitmap : Buffer) (startAddress : Nat) :
    Except Fault Bool := do
  if requestBitmap.length = 0 then
    return false
  else
    let startByte := startAddress / 8
    if startByte + requestBitmap.length > accessBitMask.length then
      return false
    else
      (List.range requestBitmap.length).allM fun i => do
        let requested ← get requestBitmap i
        let allowed ← get accessBitMask (i + startByte)
        return requested &&& allowed == requested

/-- "Copy Data": the requested bits, where they lie. -/
def copyMasked (src requestBitmap : Buffer) (startByte : Nat) : Except Fault Buffer :=
  loop 0 requestBitmap.length (fun i dst => do
    let x ← get src (i + startByte)
    let requested ← get requestBitmap i
    set dst i (x &&& requested)) (List.replicate requestBitmap.length 0#8)

/-- "Format data" of the copy: the high bits of every byte come from the byte
after it, which is still as it was. -/
def shiftDown (startBit numBytes : Nat) (dst : Buffer) : Except Fault Buffer := do
  let dst ← loop 0 (numBytes - 1) (fun i (dst : Buffer) => do
    let x ← get dst i
    let y ← get dst (i + 1)
    set dst i ((x >>> startBit) ||| (y <<< (8 - startBit)))) dst
  modify dst (numBytes - 1) (· >>> startBit)

def copyDataBits (src requestBitmap : Buffer) (startAddress numRegisters : Nat) :
    Except Fault Buffer := do
  let dst ← copyMasked src requestBitmap (startAddress / 8)
  let dst ← shiftDown (startAddress % 8) requestBitmap.length dst
  let numDataBytes := (numRegisters - 1) / 8 + 1
  if numDataBytes ≠ dst.length then
    return dst.dropLast
  else
    return dst

def writeCoil (data : Buffer) (coilStatus : Bool) (coilAddress : Nat) : Except Fault Buffer :=
  let byte : Byte := 1#8 <<< (coilAddress % 8)
  if coilStatus then
    modify data (coilAddress / 8) (· ||| byte)
  else
    modify data (coilAddress / 8) (· &&& ~~~byte)

/-- "Format data" of the write: the low bits of every byte come from the byte
before it, which from the second round on has already been moved. -/
def shiftUp (startBit numBytes : Nat) (statuses : Buffer) : Except Fault Buffer := do
  let statuses ← loop 1 numBytes (fun i (statuses : Buffer) => do
    let x ← get statuses i
    let y ← get statuses (i - 1)
    set statuses i ((x <<< startBit) ||| (y >>> (8 - startBit)))) statuses
  modify statuses 0 (· <<< startBit)

/-- The storing loop of `write_coils`. -/
def storeMasked (data requestBitmap statuses : Buffer) (startByte : Nat) : Except Fault Buffer :=
  loop 0 requestBitmap.length (fun i data => do
    let status ← get statuses i
    let requested ← get requestBitmap i
    let data ← modify data (i + startByte) (· &&& (status ||| ~~~requested)) -- clear unset bits
    modify data (i + startByte) (· ||| (status &&& requested))) data -- set the set bits

def writeCoils (data requestBitmap coilStatuses : Buffer) (startAddress : Nat) :
    Except Fault Buffer := do
  let coilStatuses ← shiftUp (startAddress % 8) requestBitmap.length coilStatuses
  storeMasked data requestBitmap coilStatuses (startAddress / 8)

def copyDataRegisters (src : Buffer) (startAddress numRegisters : Nat) : Except Fault Buffer := do
  let startByte ← int (startAddress * 2)
  let numBytes ← int (numRegisters * 2)
  loop 0 numBytes (fun i dst => do
    let index ← int (i + startByte)
    let x ← get src index
    set dst i x) (List.replicate numBytes 0#8)

def writeRegister (value : Word) (dst : Buffer) (startAddress : Nat) : Except Fault Buffer := do
  let startByte ← int (startAddress * 2)
  let dst ← set dst startByte (hiByte value)
  let next ← int (startByte + 1)
  set dst next (loByte value)

def writeRegisters (src : List Word) (dst : Buffer) (startAddress numRegisters : Nat) :
    Except Fault Buffer := do
  let startByte ← int (startAddress * 2)
  loop 0 numRegisters (fun i dst => do
    let index ← int (2 * i + startByte)
    let value ← get src i
    let dst ← set dst index (hiByte value)
    let next ← int (index + 1)
    set dst next (loByte value)) dst

end Modbus.Server
