import Mathlib.Data.List.Basic

namespace VideoAdapter.Adapter

abbrev Bytes := List UInt8

def REQ_LOGIN : Int := 0x10000
def KEEP_ALIVE : Int := 0x10010
def UPDATE_CHANGE : Int := 0x10040
def RESP_PUSH : Int := 0x10031
def RESP_STOP_PUSH : Int := 0x10033

-- An `int` field of a structure that was zeroed before the bytes were copied in:
-- four little-endian bytes, with zeros past the end of what was received.
def intAt (bytes : Bytes) (offset : Nat) : Int :=
  let byte := fun i => (bytes.getD (offset + i) 0).toNat
  (BitVec.ofNat 32 (byte 0 + 0x100 * byte 1 + 0x10000 * byte 2 + 0x1000000 * byte 3)).toInt

-- A `char` field read as a C string. It ends at its first NUL, else at the end of
-- the structure: an unterminated field runs on into its neighbours. The characters
-- of a string stand for its bytes.
def cstrAt (bytes : Bytes) (offset size : Nat) : String :=
  String.ofList ((((bytes.take size).drop offset).takeWhile (· ≠ 0)).map fun b => Char.ofNat b.toNat)

-- `flag[4]`, `cmd`, `seq`, `size`, `resv[64]`
structure MsgHeader where
  flag : Bytes
  cmd : Int
  seq : Int
  size : Int
deriving DecidableEq, Repr

def sizeofMsgHeader : Nat := 80

def MsgHeader.decode (bytes : Bytes) : MsgHeader where
  flag := bytes.take 4
  cmd := intAt bytes 4
  seq := intAt bytes 8
  size := intAt bytes 12

-- `cmsid[20]`, `password[20]`, `resv[64]`
structure ReqLogin where
  cmsid : String
  password : String
deriving DecidableEq, Repr

def sizeofReqLogin : Nat := 104

def ReqLogin.decode (bytes : Bytes) : ReqLogin where
  cmsid := cstrAt bytes 0 sizeofReqLogin
  password := cstrAt bytes 20 sizeofReqLogin

-- `pid[20]`, `flag`
structure StateItem where
  pid : String
  flag : Int
deriving DecidableEq, Repr

def sizeofStateItem : Nat := 24

def StateItem.decode (bytes : Bytes) : StateItem where
  pid := cstrAt bytes 0 sizeofStateItem
  flag := intAt bytes 20

-- `result`, `rtmpuri[260]`, `token[20]`, `resv[64]`
structure RespPush where
  result : Int
  token : String
deriving DecidableEq, Repr

def sizeofRespPush : Nat := 348

def RespPush.decode (bytes : Bytes) : RespPush where
  result := intAt bytes 0
  token := cstrAt bytes 264 sizeofRespPush

-- The bodies as an adapter builds them.
def intBytes (n : Int) : Bytes :=
  let bits := BitVec.ofInt 32 n
  (List.range 4).map fun i => UInt8.ofNat (bits.toNat >>> (8 * i))

def field (s : String) (size : Nat) : Bytes :=
  (s.toList.map fun c => UInt8.ofNat c.toNat) ++ List.replicate (size - s.length) 0

def ReqLogin.encode (req : ReqLogin) : Bytes :=
  field req.cmsid 20 ++ field req.password 20 ++ field "" 64

def encodeItems (items : List StateItem) : Bytes :=
  intBytes items.length ++ items.flatMap fun item => field item.pid 20 ++ intBytes item.flag

def RespPush.encode (resp : RespPush) : Bytes :=
  intBytes resp.result ++ field "" 260 ++ field resp.token 20 ++ field "" 64

-- The frames the server builds, by the values it puts in.
inductive Outgoing where
  | respLogin (seq result size : Int) (resv : String) (pids : List String)
  | keepAliveRe (seq : Int)
  | reqPush (seq : Int) (pid key : String)
  | reqStopPush (seq : Int) (pid : String)
  | notifyDeviceChange (seq type : Int) (pid : String)
  | groupStopPush (pids : List String)
deriving DecidableEq, Repr

end VideoAdapter.Adapter
