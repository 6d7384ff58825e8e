import Sosis.StringLoops

-- The functions of command-shell.c that cut up a path, and what each command does with
-- its arguments before it makes a request, all on a traced memory.
namespace Sosis.StringLoops
open ByteRecords Fat32 TracedMemory
open Command (space dot slash)

section paths
variable {κ : Type} [DecidableEq κ] (fuel : Nat)

-- The condition of getDir's loop.
def inDir (path : Int → κ) (delimiter : Byte) (i : Int) : Traced κ Byte Bool := do
  if ← test (· != delimiter) (path i) then test (· != 0) (path i) else pure false

-- One turn of it, on i and length.
def dirTurn (path res : Int → κ) (s : Int × Int) : Traced κ Byte (Int × Int) := do
  store (res s.2) (← read (path s.1))
  return (s.1+1,s.2+1)

-- The new value of *idx.
def getDir (path res : Int → κ) (delimiter : Byte) (idx : Int) : Traced κ Byte Int := do
  let s ← loop (fun s : Int × Int => inDir path delimiter s.1) (dirTurn path res) fuel (idx,0)
  let _ ← loop (fun j : Int => pure (j < 8)) (fun j => do
    store (res j) 0
    return j+1) fuel s.2
  return s.1+1

def countPath (path : Int → κ) : Traced κ Byte Int := do
  let s ← loop (fun s : Int × Int => test (· != 0) (path s.2)) (fun s => do
    return (if ← test (· == slash) (path s.2) then s.1+1 else s.1,s.2+1)) fuel (0,0)
  return s.1+1

-- `find` is what syscall 11 answers. The turns still to come, and a getDir behind each.
def followDirs (path dir : Int → κ) (find : Name → Word → Word) : Nat → Word → Int → Traced κ Byte Word
  | 0,last_cluster,_ => pure last_cluster
  | turns+1,last_cluster,lastIdx => do
    let last_cluster := find (← readAll 8 dir) last_cluster
    let lastIdx ← getDir fuel path dir slash lastIdx
    followDirs path dir find turns last_cluster lastIdx

def getLastCluster (path dir : Int → κ) (find : Name → Word → Word) (cur_cluster : Word) : Traced κ Byte Word := do
  let nPath ← countPath fuel path
  let lastIdx ← getDir fuel path dir slash 0
  followDirs fuel path dir find nPath.toNat cur_cluster lastIdx

-- The comparison with a literal, whose bytes are listed up to its terminator.
def strcmp (str1 : Int → κ) : List Byte → Int → Traced κ Byte Bool
  | [],i => test (· == 0) (str1 i)
  | c :: rest,i => do
    if ← test (· == 0) (str1 i) then pure false
    else if ← test (· != c) (str1 i) then pure false
    else strcmp str1 rest (i+1)

end paths

-- The arrays of a command. `word` is declared with n+1 bytes.
inductive ShellArray where
  | command
  | word (n : BitVec 16)
  | filename
  | path
  | pidStr
  | name
  | ext
  | dir
deriving DecidableEq

abbrev ShellPlace := ShellArray × Int

def ShellArray.at (a : ShellArray) : Int → ShellPlace := fun i => (a,i)

-- The bytes that each array is declared with; the command is only read, and all commands
-- but findShell have one byte more in name and ext.
def ShellArray.capacity : ShellArray → Int
  | .command => 0
  | .word n => n.toNat+1
  | .filename => 12
  | .path => 100
  | .pidStr => 3
  | .name => 8
  | .ext => 3
  | .dir => 8

-- What the system calls of a command answer: syscall 11, syscall 19, and the return code
-- of a directory request.
structure Answers where
  find : Name → Word → Word
  cur_cluster : Word
  retcode : Byte

section commands
variable (fuel : Nat) (answers : Answers)

-- A local array that is initialised with zeros.
def zeros (a : ShellArray) : Traced ShellPlace Byte Unit := do
  let _ ← loop (fun i : Int => pure (i < a.capacity)) (fun i => do
    store (a.at i) 0
    return i+1) fuel 0

def n_words : Traced ShellPlace Byte (BitVec 16) := do return BitVec.ofInt 16 (← countWords fuel ShellArray.command.at)

def argument (idx : BitVec 16) (a : ShellArray) : Traced ShellPlace Byte Unit := getWord fuel ShellArray.command.at idx a.at

def parsedName : Traced ShellPlace Byte Int :=
  parseFileName fuel ShellArray.filename.at ShellArray.name.at ShellArray.ext.at

-- With two words each of rm's loops has one turn, i = 1; a word -r ends the command for
-- want of an operand.
def rm : Traced ShellPlace Byte Unit := do
  if (← n_words fuel) ≠ 2 then pure ()
  else
    let n ← wordLen fuel ShellArray.command.at 1
    argument fuel 1 (.word n)
    if ← strcmp (ShellArray.word n).at (Command.chars "-r") 0 then pure ()
    else
      argument fuel 1 .filename
      if (← parsedName fuel) ≠ 0 then pure ()
      else if answers.retcode = 2 ∨ answers.retcode = 0 then pure ()
      else
        argument fuel 1 .filename
        let _ ← parsedName fuel

-- mkdir, cat, exec and findShell ask for one file name; they differ in what follows.
def oneName : Traced ShellPlace Byte Unit := do
  if (← n_words fuel) ≠ 2 then pure ()
  else
    argument fuel 1 .filename
    let _ ← parsedName fuel

def mkdir : Traced ShellPlace Byte Unit := oneName fuel
def cat : Traced ShellPlace Byte Unit := oneName fuel
def exec : Traced ShellPlace Byte Unit := oneName fuel
def findShell : Traced ShellPlace Byte Unit := oneName fuel

def lastCluster : Traced ShellPlace Byte Word :=
  getLastCluster fuel ShellArray.path.at ShellArray.dir.at answers.find answers.cur_cluster

def cd : Traced ShellPlace Byte Unit := do
  if (← n_words fuel) ≠ 2 then pure ()
  else
    zeros fuel .path
    argument fuel 1 .path
    if ← strcmp ShellArray.path.at [] 0 then pure ()
    else if ← strcmp ShellArray.path.at (Command.chars "..") 0 then pure ()
    else
      let _ ← lastCluster fuel answers

def pathArguments : Traced ShellPlace Byte Unit := do
  if (← n_words fuel) ≠ 3 then pure ()
  else
    argument fuel 1 .filename
    argument fuel 2 .path
    if (← parsedName fuel) ≠ 0 then pure ()
    else
      let _ ← lastCluster fuel answers

def mvPath : Traced ShellPlace Byte Unit := pathArguments fuel answers
def copyPath : Traced ShellPlace Byte Unit := pathArguments fuel answers

def kill : Traced ShellPlace Byte Unit := do
  if (← n_words fuel) ≠ 2 then pure ()
  else
    zeros fuel .pidStr
    argument fuel 1 .pidStr

end commands

end Sosis.StringLoops
