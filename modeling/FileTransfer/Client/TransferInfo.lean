import FileTransfer.Client.Protocol

/-!
# The client's `transferInfo.cpp`

The path of the file to send and the name it is sent under. Paths are those of
the client's Windows build; their narrow text is taken byte by byte.
-/

namespace FileTransfer.Client

/-- What `transfer.info` gave, as far as the requests read it. -/
structure TransferInfo where
  path : Bytes

/-- A directory separator: `/` or `\`. -/
def isSlash (b : UInt8) : Bool := b == 0x2f || b == 0x5c

/-- An ASCII letter. -/
def isLetter (b : UInt8) : Bool := (0x41 ≤ b && b ≤ 0x5a) || (0x61 ≤ b && b ≤ 0x7a)

/-- The length of the root name: a drive `X:` or a share `\\server`. -/
def rootNameLength : Bytes → Nat
  | d :: c :: rest =>
    if isLetter d && c == 0x3a then 2
    else if isSlash d && isSlash c then
      match rest with
      | [] => 0
      | e :: _ => if isSlash e then 0 else 2 + (rest.takeWhile (!isSlash ·)).length
    else 0
  | _ => 0

/-- `std::filesystem::path(path).filename()`: what follows the last separator
behind the root name. -/
def filename (path : Bytes) : Bytes :=
  ((path.drop (rootNameLength path)).reverse.takeWhile (!isSlash ·)).reverse

/-- `getFileName`: the file name, filled up with `|` to 255 bytes. -/
def TransferInfo.getFileName (ti : TransferInfo) : Bytes :=
  let name := filename ti.path
  name ++ List.replicate (nameSize - name.length) 0x7c

end FileTransfer.Client
