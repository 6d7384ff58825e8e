import Sosis.ByteRecords

-- A drive with the PIO commands of the ATA standard, as a host sees it at the ports of
-- its command block. What the standard leaves open is `none`: registers written while
-- the drive works, words asked for that are not there.
namespace Sosis.AtaDrive
open ByteRecords

inductive Transfer where
  | toHost
  | toDrive
  deriving DecidableEq

-- `left` sectors are still to be transferred, the one at hand included.
inductive Phase where
  | ready
  | busy (polls : Nat) (transfer : Transfer) (left : Nat)
  | data (transfer : Transfer) (left word : Nat)
  | failed
  deriving DecidableEq

structure Drive where
  medium : Bytes
  capacity : Nat
  sectorCount : Byte
  lbaLow : Byte
  lbaMid : Byte
  lbaHigh : Byte
  device : Byte
  sector : Nat
  phase : Phase
  -- for how many status reads each busy period lasts, and how many periods there were
  pace : Nat → Nat
  periods : Nat

def SECTOR_WORDS : Nat := 256
def SECTOR_SIZE : Nat := 2*SECTOR_WORDS

def BSY : Byte := 0x80
def DRDY : Byte := 0x40
def DRQ : Byte := 0x08
def ERR : Byte := 0x01

def Phase.status : Phase → Byte
  | .ready => DRDY
  | .busy .. => BSY
  | .data .. => DRDY ||| DRQ
  | .failed => DRDY ||| ERR

-- The value the word has in the two bytes from `o` on, and its store there.
def putWord (b : Bytes) (o : Nat) (w : BitVec 16) : Bytes := fun k =>
  if k = o then byteOf w 0 else if k = o+1 then byteOf w 1 else b k

namespace Drive

def lba (d : Drive) : Nat := (d.device &&& 0x0F).toNat*2^24 + d.lbaHigh.toNat*2^16 + d.lbaMid.toNat*2^8 + d.lbaLow.toNat

def count (d : Drive) : Nat := if d.sectorCount = 0 then 256 else d.sectorCount.toNat

def workOn (d : Drive) (transfer : Transfer) (left : Nat) : Drive :=
  {d with phase := .busy (d.pace d.periods) transfer left, periods := d.periods+1}

def command (d : Drive) (transfer : Transfer) : Option Drive :=
  if d.device &&& 0x40 = 0 then none
  else if d.lba + d.count ≤ d.capacity then some ({d with sector := d.lba}.workOn transfer d.count)
  else some {d with phase := .failed}

def outb (d : Drive) (port : BitVec 16) (value : Byte) : Option Drive :=
  match d.phase with
  | .busy .. | .data .. => none
  | .ready | .failed =>
    if port = 0x1F2 then some {d with sectorCount := value}
    else if port = 0x1F3 then some {d with lbaLow := value}
    else if port = 0x1F4 then some {d with lbaMid := value}
    else if port = 0x1F5 then some {d with lbaHigh := value}
    else if port = 0x1F6 then some {d with device := value}
    else if port = 0x1F7 then
      if value = 0x20 then d.command .toHost
      else if value = 0x30 then d.command .toDrive
      else none
    else none

-- Work goes on between two status reads and is done after `polls` of them.
def settled (d : Drive) : Drive :=
  match d.phase with
  | .busy (polls+1) transfer left => {d with phase := .busy polls transfer left}
  | .busy 0 _ 0 => {d with phase := .ready}
  | .busy 0 transfer (left+1) => {d with phase := .data transfer (left+1) 0}
  | _ => d

def inb (d : Drive) (port : BitVec 16) : Option (Byte × Drive) :=
  if port = 0x1F7 then
    match d.phase with
    | .busy (_+1) _ _ => some (BSY,d.settled)
    | _ => some (d.settled.phase.status,d.settled)
  else none

def place (d : Drive) (word : Nat) : Nat := SECTOR_SIZE*d.sector + 2*word

def inw (d : Drive) (port : BitVec 16) : Option (BitVec 16 × Drive) :=
  match d.phase with
  | .data .toHost left word =>
    if port = 0x1F0 then
      let value := le16 d.medium (d.place word)
      if word+1 < SECTOR_WORDS then some (value,{d with phase := .data .toHost left (word+1)})
      else if left = 1 then some (value,{d with phase := .ready, sector := d.sector+1})
      else some (value,{d with sector := d.sector+1}.workOn .toHost (left-1))
    else none
  | _ => none

-- After the last word of a sector the drive stores it, also after the last sector.
def outw (d : Drive) (port : BitVec 16) (value : BitVec 16) : Option Drive :=
  match d.phase with
  | .data .toDrive left word =>
    if port = 0x1F0 then
      let d := {d with medium := putWord d.medium (d.place word) value}
      if word+1 < SECTOR_WORDS then some {d with phase := .data .toDrive left (word+1)}
      else some ({d with sector := d.sector+1}.workOn .toDrive (left-1))
    else none
  | _ => none

-- The registers of a drive that waits for a command.
theorem outb_ready {d : Drive} (ready : d.phase = .ready) (value : Byte) :
    d.outb 0x1F2 value = some {d with sectorCount := value} ∧ d.outb 0x1F3 value = some {d with lbaLow := value} ∧
    d.outb 0x1F4 value = some {d with lbaMid := value} ∧ d.outb 0x1F5 value = some {d with lbaHigh := value} ∧
    d.outb 0x1F6 value = some {d with device := value} := by
  simp [outb,ready]

theorem outb_command {d : Drive} (ready : d.phase = .ready) :
    d.outb 0x1F7 0x20 = d.command .toHost ∧ d.outb 0x1F7 0x30 = d.command .toDrive := by
  simp [outb,ready]

end Drive

end Sosis.AtaDrive
