/-
The check for encrypted homes: `check_encrypted_home_access` takes the home from the text of a path,
and `get_encryption_key` gives out a key by the owner of an inode.
-/
import Twilight.Fs.Namespace

namespace Twilight.Syscall

open Fs (Inode)

def homeDir : Str := [47, 104, 111, 109, 101, 47]

def homeRootForPath (path : Str) : Option Str :=
  if homeDir <+: path then
    let rest := path.drop homeDir.length
    let user := (rest.splitOn Str.slash).headD []
    if user = [] then none else some (homeDir ++ user)
  else none

/-! ## The check -/

def eaccess : Int := -13

/-- `getAttr` and `metadata` are those of the VFS, `metadata` with the owner only; `uid` is
`get_uid() as u32`. -/
def checkEncryptedHomeAccess {m : Type → Type} [Monad m] (getAttr metadata : Str → m (Option UInt32))
    (uid : UInt32) (path : Str) : m (Except Int Unit) :=
  match homeRootForPath path with
  | none => pure (.ok ())
  | some homeRoot => do
    let attr ← getAttr homeRoot
    if attr.getD 0 &&& Inode.iflagEncrypted = 0 then pure (.ok ())
    else if uid = 0 then pure (.ok ())
    else do
      match ← metadata homeRoot with
      | none => pure (.ok ())
      | some owner => if owner = uid then pure (.ok ()) else pure (.error eaccess)

/-- `get_encryption_key`; `userKey` is `get_user_key`. -/
def getEncryptionKey (userKey : UInt32 → Option (List UInt8)) (inode : Inode) (uid : UInt32) :
    Option (List UInt8) :=
  if inode.isEncrypted = false then none
  else if uid ≠ 0 ∧ uid ≠ inode.uid then none
  else userKey inode.uid

end Twilight.Syscall
