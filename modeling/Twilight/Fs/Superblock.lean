/-
The superblock of TwilightFS.

Its fields are the geometry every other function works from: the bitmaps start
at block 1, the inode table follows them, and data zones begin at
`firstDataZone`. The record is packed, 39 bytes long, and lies at block 0.
-/
import Twilight.Fs.Inode

namespace Twilight.Fs

open Nat

def fsBlockSize : Nat := 2048

def magicTfs0 : Nat := 0x30534654

structure Superblock where
  ninodes : Nat
  imapBlocks : Nat
  zmapBlocks : Nat
  firstDataZone : Nat
  logZoneSize : Nat
  maxSize : Nat
  zones : Nat
  magic : Nat
  blockSize : Nat
  subversion : Nat
deriving DecidableEq

namespace Superblock

variable (sb : Superblock)

def inodeTableStart : Nat := sb.imapBlocks + sb.zmapBlocks + 1

def inodesPerBlock : Nat := sb.blockSize / Inode.byteSize

def inodeBlock (n : Nat) : Nat := sb.inodeTableStart + (n - 1) / sb.inodesPerBlock

def inodeOffset (n : Nat) : Nat := (n - 1) % sb.inodesPerBlock * Inode.byteSize

def bitsPerBlock : Nat := sb.blockSize * 8

/-- The packed image; the three pad fields are zero. -/
def encode : Bytes :=
  Bytes.zero
    |>.putLE 0 4 sb.ninodes |>.putLE 6 4 sb.imapBlocks |>.putLE 10 4 sb.zmapBlocks
    |>.putLE 14 4 sb.firstDataZone |>.putLE 18 2 sb.logZoneSize |>.putLE 22 4 sb.maxSize
    |>.putLE 26 4 sb.zones |>.putLE 30 4 sb.magic |>.putLE 36 2 sb.blockSize
    |>.putLE 38 1 sb.subversion

end Superblock
end Twilight.Fs
