/-
# Access permissions of Classic sectors

A sector of a Classic tag has three data blocks and a trailer with its keys.  For each of the
four, three access bits say who may do what with it; so there are eight patterns of
permissions for a data block, and eight for a trailer, of which two mean the same.
-/
import TagReader.Inspect

namespace TagReader
namespace Classic

/-- Who may do something with a data block. -/
inductive BlockPermission where
  /-- Whoever has either key. -/
  | keyAOrB
  /-- Whoever has key B. -/
  | keyB
  /-- Nobody. -/
  | never
deriving DecidableEq

/-- Who may do something with a sector trailer. -/
inductive TrailerPermission where
  /-- Whoever has either key. -/
  | keyAOrB
  /-- Whoever has key A. -/
  | keyA
  /-- Whoever has key B. -/
  | keyB
  /-- Nobody. -/
  | never
deriving DecidableEq

/-- The name of a permission. -/
def BlockPermission.label : BlockPermission → String
  | keyAOrB => "KeyAOrB"
  | keyB => "KeyB"
  | never => "Never"

/-- The name of a permission. -/
def TrailerPermission.label : TrailerPermission → String
  | keyAOrB => "KeyAOrB"
  | keyA => "KeyA"
  | keyB => "KeyB"
  | never => "Never"

/-- The permission of a name. -/
def BlockPermission.ofLabel? (name : String) : Option BlockPermission :=
  [keyAOrB, keyB, never].find? fun p => p.label == name

/-- The permission of a name. -/
def TrailerPermission.ofLabel? (name : String) : Option TrailerPermission :=
  [keyAOrB, keyA, keyB, never].find? fun p => p.label == name

/-- The permissions on a data block. -/
structure BlockAccess where
  read : BlockPermission
  write : BlockPermission
  increment : BlockPermission
  decrement : BlockPermission
deriving DecidableEq

/-- The permissions on the keys and access bits of a trailer. -/
structure TrailerAccess where
  writeKeyA : TrailerPermission
  readAccess : TrailerPermission
  writeAccess : TrailerPermission
  readKeyB : TrailerPermission
  writeKeyB : TrailerPermission
deriving DecidableEq

/-- How permissions are shown in messages. -/
def BlockAccess.inspect (a : BlockAccess) : String :=
  Inspect.record "BlockAccess"
    [("read", a.read.label), ("write", a.write.label), ("increment", a.increment.label),
      ("decrement", a.decrement.label)]

/-- How permissions are shown in messages. -/
def TrailerAccess.inspect (a : TrailerAccess) : String :=
  Inspect.record "SectorTrailerAccess"
    [("write_key_a", a.writeKeyA.label), ("read_access", a.readAccess.label),
      ("write_access", a.writeAccess.label), ("read_key_b", a.readKeyB.label),
      ("write_key_b", a.writeKeyB.label)]

/-- The three access bits of a block. -/
structure Pattern where
  c1 : Bool
  c2 : Bool
  c3 : Bool
deriving DecidableEq

/-- The patterns in ascending order, the first bit counting most. -/
def Pattern.all : List Pattern :=
  [⟨false, false, false⟩, ⟨false, false, true⟩, ⟨false, true, false⟩, ⟨false, true, true⟩,
   ⟨true, false, false⟩, ⟨true, false, true⟩, ⟨true, true, false⟩, ⟨true, true, true⟩]

/-- The permissions on a data block that a pattern gives. -/
def BlockAccess.ofPattern : Pattern → BlockAccess
  | ⟨false, false, false⟩ => ⟨.keyAOrB, .keyAOrB, .keyAOrB, .keyAOrB⟩
  | ⟨false, false, true⟩ => ⟨.keyAOrB, .never, .never, .keyAOrB⟩
  | ⟨false, true, false⟩ => ⟨.keyAOrB, .never, .never, .never⟩
  | ⟨false, true, true⟩ => ⟨.keyB, .keyB, .never, .never⟩
  | ⟨true, false, false⟩ => ⟨.keyAOrB, .keyB, .never, .never⟩
  | ⟨true, false, true⟩ => ⟨.keyB, .never, .never, .never⟩
  | ⟨true, true, false⟩ => ⟨.keyAOrB, .keyB, .keyB, .keyAOrB⟩
  | ⟨true, true, true⟩ => ⟨.never, .never, .never, .never⟩

/-- The permissions on a trailer that a pattern gives. -/
def TrailerAccess.ofPattern : Pattern → TrailerAccess
  | ⟨false, false, false⟩ => ⟨.keyA, .keyA, .never, .keyA, .keyA⟩
  | ⟨false, false, true⟩ => ⟨.keyA, .keyA, .keyA, .keyA, .keyA⟩
  | ⟨false, true, false⟩ => ⟨.never, .keyA, .never, .keyA, .never⟩
  | ⟨false, true, true⟩ => ⟨.keyB, .keyAOrB, .keyB, .never, .keyB⟩
  | ⟨true, false, false⟩ => ⟨.keyB, .keyAOrB, .never, .never, .keyB⟩
  | ⟨true, false, true⟩ => ⟨.never, .keyAOrB, .keyB, .never, .never⟩
  | ⟨true, true, false⟩ => ⟨.never, .keyAOrB, .never, .never, .never⟩
  | ⟨true, true, true⟩ => ⟨.never, .keyAOrB, .never, .never, .never⟩

/-- The first pattern that gives some permissions on a data block. -/
def BlockAccess.pattern? (a : BlockAccess) : Option Pattern :=
  Pattern.all.find? fun p => BlockAccess.ofPattern p == a

/-- The first pattern that gives some permissions on a trailer. -/
def TrailerAccess.pattern? (a : TrailerAccess) : Option Pattern :=
  Pattern.all.find? fun p => TrailerAccess.ofPattern p == a

/-- The permissions on a sector. -/
structure SectorAccess where
  block0 : BlockAccess
  block1 : BlockAccess
  block2 : BlockAccess
  trailer : TrailerAccess
deriving DecidableEq

/-- The permissions with which tags leave the factory: data are open to both keys, and key A
governs the trailer. -/
def SectorAccess.transport : SectorAccess :=
  let free : BlockAccess := .ofPattern ⟨false, false, false⟩
  ⟨free, free, free, .ofPattern ⟨false, false, true⟩⟩

end Classic
end TagReader
