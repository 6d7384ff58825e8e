import Sosis.PathLoops

-- A path as the folders it walks through, and the byte that getLastCluster reads behind
-- it.
namespace Sosis.StringLoops
open ByteRecords Fat32 TracedMemory
open Command (space dot slash PathShell CdLine Descends)

-- syscall 11 on this drive.
def asked (v : Volume) : Name → Word → Word := fun name parent => findCluster v.driver ⟨0,name,fun _ => 0,parent,0⟩

-- getLastCluster returns what the walk reaches, or 9999, from bytes of the path; and where
-- the walk fails cd leaves the prompt where it was.
structure Resolves {κ : Type} [DecidableEq κ] (v : Volume) (d : Cell) (fuel : Nat) (memory : κ → Byte) (path dir : Int → κ)
    (chars : List Byte) : Prop where
  cluster : ∃ cluster stores, Performs (Inside path chars) memory
      (getLastCluster fuel path dir (asked v) (cellNumber d)) cluster stores ∧
    (∀ e, Descends v d (chars.splitOn slash) e → cluster = cellNumber e) ∧
    ((∀ e, ¬ Descends v d (chars.splitOn slash) e) → cluster = 9999)
  stays : (∀ e, ¬ Descends v d (chars.splitOn slash) e) → ∀ (p p' : PathShell) (line : CdLine),
    p.shell_state.cur_cluster = cellNumber d → Command.countWords line.command = 2 →
    Command.getWord line.command 1 Command.pathSize = some chars → Command.cd v.driver p line = some p' →
    p'.shell_state = p.shell_state ∧ p'.cwd_table = p.cwd_table

section reads
variable {κ : Type} [DecidableEq κ] {allowed : κ → Prop} {memory : κ → Byte} {path dir : Int → κ} {fuel : Nat}

end reads

def pathDest (chars : List Byte) : ShellPlace → Byte := fun k =>
  if k.1 = .path ∧ 0 ≤ k.2 then chars.getD k.2.toNat 0 else 0

end Sosis.StringLoops
