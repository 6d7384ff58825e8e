import Sosis.AtaDrive
import Sosis.Fat32Driver

-- disk.c, with the drive at its ports. A wait that polls more often than `fuel` allows
-- has not returned.
namespace Sosis.Disk
open ByteRecords AtaDrive Fat32

def ATA_STATUS_BSY : Byte := 0x80
def ATA_STATUS_RDY : Byte := 0x40
def HALF_BLOCK_SIZE : Nat := BLOCK_SIZE/2

-- while (in(0x1F7) & ATA_STATUS_BSY)
def ATA_busy_wait : Nat → Drive → Option Drive
  | 0,_ => none
  | fuel+1,d => (d.inb 0x1F7).bind fun (status,d) =>
    if status &&& ATA_STATUS_BSY ≠ 0 then ATA_busy_wait fuel d else some d

-- while (!(in(0x1F7) & ATA_STATUS_RDY))
def ATA_DRQ_wait : Nat → Drive → Option Drive
  | 0,_ => none
  | fuel+1,d => (d.inb 0x1F7).bind fun (status,d) =>
    if status &&& ATA_STATUS_RDY = 0 then ATA_DRQ_wait fuel d else some d

-- What read_blocks and write_blocks begin with.
def issue (fuel : Nat) (d : Drive) (logical_block_address : Word) (block_count code : Byte) : Option Drive := do
  let d ← ATA_busy_wait fuel d
  let d ← d.outb 0x1F6 ((0xE0 : Byte) ||| ((logical_block_address >>> 24) &&& 0xF).truncate 8)
  let d ← d.outb 0x1F2 block_count
  let d ← d.outb 0x1F3 (logical_block_address.truncate 8)
  let d ← d.outb 0x1F4 ((logical_block_address >>> 8).truncate 8)
  let d ← d.outb 0x1F5 ((logical_block_address >>> 16).truncate 8)
  d.outb 0x1F7 code

-- A store through a uint16_t pointer.
def put16 (memory : Memory) (ptr : Word) (w : BitVec 16) : Memory :=
  fun a => if a = ptr then byteOf w 0 else if a = ptr+1 then byteOf w 1 else memory a

-- The turns of `for (uint32_t j = 0; j < HALF_BLOCK_SIZE; j++)` from `j` on.
def readWords : Nat → Nat → Drive → Memory → Word → Option (Drive × Memory)
  | 0,_,d,memory,_ => some (d,memory)
  | turns+1,j,d,memory,target => (d.inw 0x1F0).bind fun (w,d) =>
    readWords turns (j+1) d (put16 memory (target + BitVec.ofNat 32 (2*j)) w) target

def readSectors (fuel : Nat) : Nat → Drive → Memory → Word → Option (Drive × Memory)
  | 0,d,memory,_ => some (d,memory)
  | turns+1,d,memory,target => do
    let d ← ATA_busy_wait fuel d
    let d ← ATA_DRQ_wait fuel d
    let (d,memory) ← readWords HALF_BLOCK_SIZE 0 d memory target
    readSectors fuel turns d memory (target + BitVec.ofNat 32 (2*HALF_BLOCK_SIZE))

def read_blocks (fuel : Nat) (d : Drive) (memory : Memory) (ptr logical_block_address : Word) (block_count : Byte) :
    Option (Drive × Memory) := do
  let d ← issue fuel d logical_block_address block_count 0x20
  readSectors fuel block_count.toNat d memory ptr

-- ((uint16_t*) ptr)[HALF_BLOCK_SIZE*i + j]
def writeWords (memory : Memory) (ptr : Word) (i : Nat) : Nat → Nat → Drive → Option Drive
  | 0,_,d => some d
  | turns+1,j,d => do
    let d ← d.outw 0x1F0 (le16 (memory.at ptr) (2*(HALF_BLOCK_SIZE*i + j)))
    writeWords memory ptr i turns (j+1) d

def writeSectors (fuel : Nat) (memory : Memory) (ptr : Word) : Nat → Nat → Drive → Option Drive
  | 0,_,d => some d
  | turns+1,i,d => do
    let d ← ATA_busy_wait fuel d
    let d ← ATA_DRQ_wait fuel d
    let d ← writeWords memory ptr i HALF_BLOCK_SIZE 0 d
    writeSectors fuel memory ptr turns (i+1) d

def write_blocks (fuel : Nat) (d : Drive) (memory : Memory) (ptr logical_block_address : Word) (block_count : Byte) :
    Option Drive := do
  let d ← issue fuel d logical_block_address block_count 0x30
  writeSectors fuel memory ptr block_count.toNat 0 d

inductive BlockRequest where
  | read (ptr logical_block_address : Word) (block_count : Byte)
  | write (ptr logical_block_address : Word) (block_count : Byte)

def BlockRequest.serve (fuel : Nat) (m : Drive × Memory) : BlockRequest → Option (Drive × Memory)
  | .read ptr lba block_count => read_blocks fuel m.1 m.2 ptr lba block_count
  | .write ptr lba block_count => (write_blocks fuel m.1 m.2 ptr lba block_count).map fun d => (d,m.2)

-- The same request on the blocks alone.
def BlockRequest.transfer (m : Fat32.Disk × Memory) : BlockRequest → Fat32.Disk × Memory
  | .read ptr lba block_count =>
    (m.1,m.2.store ptr (Fat32.read_blocks m.1 lba block_count.toNat) (BLOCK_SIZE*block_count.toNat))
  | .write ptr lba block_count => (Fat32.write_blocks m.1 (m.2.at ptr) lba block_count.toNat,m.2)

def BlockRequest.lba : BlockRequest → Word
  | .read _ lba _ => lba
  | .write _ lba _ => lba

def BlockRequest.block_count : BlockRequest → Byte
  | .read _ _ block_count => block_count
  | .write _ _ block_count => block_count

-- A count of 0 asks the drive for 256 sectors and the driver for none.
def BlockRequest.Fits (capacity : Nat) (r : BlockRequest) : Prop :=
  r.block_count ≠ 0 ∧ r.lba.toNat % 2^28 + r.block_count.toNat ≤ capacity

end Sosis.Disk
