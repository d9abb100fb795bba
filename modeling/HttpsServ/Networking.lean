import HttpsServ.HttpParser

/-!
# networking.c

The peer addresses of the accept loop, and the reader of the configuration
file. The two bytes of a family and the places of the addresses are those of
Linux, with the low byte first.
-/

namespace HttpsServ.Networking

open ByteString Utility HttpParser

/-- The address of a peer, in network byte order. -/
inductive Address
  | ipv4 (raw : Bytes) (size : raw.length = 4)
  | ipv6 (raw : Bytes) (size : raw.length = 16)

def Address.raw : Address → Bytes
  | .ipv4 raw _ => raw
  | .ipv6 raw _ => raw

def afInet : Bytes := [2, 0]
def afInet6 : Bytes := [10, 0]

/-- A `struct sockaddr_storage`. -/
structure SockaddrStorage where
  cells : Bytes
  size : cells.length = 128

def SockaddrStorage.zero : SockaddrStorage := ⟨List.replicate 128 0, List.length_replicate⟩

def SockaddrStorage.store (sa : SockaddrStorage) (off : Nat) (data : Bytes) : SockaddrStorage :=
  ⟨overwrite sa.cells off data, (length_overwrite _ _ _).trans sa.size⟩

def SockaddrStorage.ssFamily (sa : SockaddrStorage) : Bytes := sa.cells.take 2

/-- `mbedtls_net_accept` into the block: the raw address at its start, and the
length of the address. -/
def netAccept (sa : SockaddrStorage) (peer : Address) : SockaddrStorage × Nat :=
  (sa.store 0 peer.raw, peer.raw.length)

/-- `GetInAddr`: the place of `sin_addr` or of `sin6_addr`. -/
def getInAddr (sa : SockaddrStorage) : Nat := if sa.ssFamily = afInet then 4 else 8

/-- `GetSockaddrIp`, with `inet_ntop` on the address that its arguments point to. -/
def getSockaddrIp (inetNtop : Address → Bytes) (sa : SockaddrStorage) : Bytes :=
  if sa.ssFamily = afInet then
    inetNtop (.ipv4 ((sa.cells.drop (getInAddr sa)).take 4) (by
      have hplace : getInAddr sa ≤ 8 := by rw [getInAddr]; split <;> omega
      simp only [List.length_take, List.length_drop, sa.size]
      omega))
  else
    inetNtop (.ipv6 ((sa.cells.drop (getInAddr sa)).take 16) (by
      have hplace : getInAddr sa ≤ 8 := by rw [getInAddr]; split <;> omega
      simp only [List.length_take, List.length_drop, sa.size]
      omega))

/-- One pass of the loop in `RunServer`: the text that is printed for the peer, and
`their_addr` afterwards. -/
def acceptPeer (inetNtop : Address → Bytes) (theirAddr : SockaddrStorage) (peer : Address) :
    Bytes × SockaddrStorage :=
  let (theirAddr, internalSinSize) := netAccept theirAddr peer
  let theirAddr := theirAddr.store 0 (if internalSinSize = 4 then afInet else afInet6)
  (getSockaddrIp inetNtop theirAddr, theirAddr)

def acceptPeers (inetNtop : Address → Bytes) (theirAddr : SockaddrStorage) :
    List Address → List Bytes
  | [] => []
  | peer :: peers =>
      let (clientIp, theirAddr) := acceptPeer inetNtop theirAddr peer
      clientIp :: acceptPeers inetNtop theirAddr peers

/-- The addresses that `RunServer` prints for the peers it accepts. -/
def printedPeers (inetNtop : Address → Bytes) (peers : List Address) : List Bytes :=
  acceptPeers inetNtop .zero peers

def maxPortlen : Nat := 6
def inet6Addrstrlen : Nat := 46

/-- The fields of `struct Server` that the configuration sets. -/
structure Server where
  sPort : Bytes := []
  sHost : Bytes := []
  backlog : Int := 0
  defaultDocument : Option Bytes := none
  rootFolder : Option Bytes := none
  crtFilePath : Option Bytes := none
  pkeyFilePath : Option Bytes := none

/-- The settings, in the order in which a line is compared with them. -/
inductive Setting
  | port
  | host
  | backlog
  | defaultDocument
  | rootFolder
  | crtFilePath
  | pkeyFilePath
  deriving DecidableEq

def Setting.all : List Setting :=
  [port, host, backlog, defaultDocument, rootFolder, crtFilePath, pkeyFilePath]

/-- The literal that a setting's branch compares the token with. -/
def Setting.key : Setting → Bytes
  | port => bytes "port:"
  | host => bytes "host:"
  | backlog => bytes "backlog:"
  | defaultDocument => bytes "default_document:"
  | rootFolder => bytes "root_folder:"
  | crtFilePath => bytes "crt_file_path:"
  | pkeyFilePath => bytes "pkey_file_path:"

/-- What a setting's branch adds to `integrity_test`. -/
def Setting.bit : Setting → Nat
  | port => 1
  | host => 2
  | backlog => 4
  | defaultDocument => 8
  | rootFolder => 16
  | crtFilePath => 32
  | pkeyFilePath => 64

def isSpace (b : UInt8) : Bool := b == 32 || (9 ≤ b && b ≤ 13)

def isDigit (b : UInt8) : Bool := 48 ≤ b && b ≤ 57

/-- The value of the digits at the start of a text. -/
def leadingDigits (s : Bytes) : Nat :=
  (s.takeWhile isDigit).foldl (fun value b => value * 10 + (b.toNat - 48)) 0

def longMax : Int := 9223372036854775807

/-- `atoi`: `strtol` in base ten, which saturates, cast to `int`. -/
def atoi (s : Bytes) : Int :=
  match s.dropWhile isSpace with
  | 45 :: digits => toInt32 (max (-(leadingDigits digits : Int)) (-longMax - 1))
  | 43 :: digits => toInt32 (min (leadingDigits digits) longMax)
  | digits => toInt32 (min (leadingDigits digits) longMax)

/-- What a setting's branch stores. -/
def Server.set (server : Server) (value : Bytes) : Setting → Server
  | .port => { server with sPort := value }
  | .host => { server with sHost := value }
  | .backlog => { server with backlog := atoi value }
  | .defaultDocument => { server with defaultDocument := some value }
  | .rootFolder => { server with rootFolder := some value }
  | .crtFilePath => { server with crtFilePath := some value }
  | .pkeyFilePath => { server with pkeyFilePath := some value }

/-- A call of `getline`: where in its block the line goes, the line's length, and
the room that `n` claims. -/
structure GetlineCall where
  offset : Nat
  lineLength : Nat
  n : Nat
  deriving DecidableEq

/-- The variables of `SetServerStartupParams`. `conf` is the string at the cursor and
`offset` the cursor's place in its block; `assigned` are the values stored so far. -/
structure Startup where
  server : Server
  conf : Bytes
  offset : Nat
  size : Nat
  integrityTest : Nat
  assigned : List (Setting × Bytes)
  getlines : List GetlineCall

/-- `strtok_r(conf, .., &conf)`: the token, and the cursor behind its delimiter. -/
def Startup.strtok (s : Startup) (isDelim : UInt8 → Bool) : Option Bytes × Startup :=
  let (token, rest) := HttpParser.strtok isDelim s.conf
  (token, { s with conf := rest, offset := s.offset + (s.conf.length - rest.length) })

/-- The branch of one setting; `none` when it hands on a `NULL` token. -/
def matchSetting (token : Bytes) (s : Startup) (setting : Setting) : Option Startup :=
  if token = setting.key then
    match s.strtok (· == 10) with
    | (none, _) => none
    | (some value, s) =>
        some { s with
          server := s.server.set value setting
          integrityTest := s.integrityTest ||| setting.bit
          assigned := s.assigned ++ [(setting, value)] }
  else some s

/-- `getline`: the line at the cursor; `n` grows when the line and its zero do not fit. -/
def Startup.getline (s : Startup) (line : Bytes) : Startup :=
  { s with
    conf := cstr line
    size := if line.length + 1 ≤ s.size then s.size else max (2 * s.size) (line.length + 1)
    getlines := s.getlines ++ [⟨s.offset, line.length, s.size⟩] }

/-- The body of the loop; the token of the line is compared with every key. -/
def readSetting (s : Startup) (line : Bytes) : Option Startup :=
  match (s.getline line).strtok (· == 32) with
  | (none, _) => none
  | (some token, s) => Setting.all.foldlM (matchSetting token) s

/-- The lines of a file, each with the newline that ends it. -/
def fileLines : Bytes → List Bytes
  | [] => []
  | b :: rest =>
      if b = 10 then [10] :: fileLines rest
      else
        match fileLines rest with
        | [] => [[b]]
        | line :: lines => (b :: line) :: lines

/-- `SetServerStartupParams`: its result and the variables it ends with; `none`
when a `NULL` token was used. -/
def setServerStartupParams (fopen : Bytes → Option FileImage) (hostServer : Server) :
    Option (Int × Startup) :=
  let (ret, confFile) := openStaticFile fopen (bytes "/default.conf") (bytes "..") none
  let s : Startup :=
    { server := hostServer, conf := [], offset := 0, size := ret.toNat, integrityTest := 0
      assigned := [], getlines := [] }
  if ret < 0 then some (otherError, s)
  else
    let s := { s with server := { hostServer with backlog := 10 } }
    let lines := fileLines (confFile.elim [] OpenFile.unread)
    (lines.foldlM readSetting s).map fun s =>
      (if s.integrityTest ≠ 127 then otherError else 0, s)

end HttpsServ.Networking
