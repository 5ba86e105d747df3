/-
  Stream ids and addresses (core/node/shared/stream_id.go and ids.go).
-/

import River.Node.Protocol

namespace River.Node

inductive StreamType where
  | channel | dmChannel | gdmChannel | media | space
  | userDeviceKey | userInbox | user | userSettings
  deriving DecidableEq

def StreamType.bin : StreamType → Fin 256
  | .channel => 0x20
  | .dmChannel => 0x88
  | .gdmChannel => 0x77
  | .media => 0xff
  | .space => 0x10
  | .userDeviceKey => 0xad
  | .userInbox => 0xa1
  | .user => 0xa8
  | .userSettings => 0xa5

def StreamType.ofByte? (b : Fin 256) : Option StreamType :=
  [.channel, .dmChannel, .gdmChannel, .media, .space, .userDeviceKey, .userInbox, .user,
    .userSettings].find? (·.bin = b)

def StreamType.contentLength : StreamType → Nat
  | .userDeviceKey | .userInbox | .user | .userSettings | .space => 21
  | .media | .channel | .dmChannel | .gdmChannel => 32

def checkExpectedLength (b : Bytes) : Res Unit :=
  if b.length ≠ 32 then riverError .badStreamId "invalid length"
  else match b.head?.bind StreamType.ofByte? with
    | none => riverError .badStreamId "invalid stream prefix"
    | some t =>
      if (b.drop t.contentLength).all (· = 0) then .ok ()
      else riverError .badStreamId "zero suffix expected for id type"

def StreamId := { b : Bytes // checkExpectedLength b = .ok () }

namespace StreamId

def bytes (id : StreamId) : Bytes := id.1

instance : DecidableEq StreamId := inferInstanceAs (DecidableEq { _b : Bytes // _ })

@[ext] theorem ext {a b : StreamId} (h : a.bytes = b.bytes) : a = b := Subtype.ext h

def fromBytes (b : Bytes) : Res StreamId :=
  match h : checkExpectedLength b with
  | .ok () => .ok ⟨b, h⟩
  | .error e => .error e
  | .panic m => .panic m

def equalsBytes (id : StreamId) (other : Bytes) : Bool := id.bytes = other

def type? (id : StreamId) : Option StreamType := id.bytes.head?.bind StreamType.ofByte?

end StreamId

open StreamId

theorem StreamId.fromBytes_eq_ok {b : Bytes} {id : StreamId} :
    fromBytes b = .ok id ↔ id.bytes = b := by
  unfold fromBytes
  split
  · constructor
    · intro he
      cases he
      rfl
    · rintro rfl
      rfl
  · rename_i e h
    simp only [reduceCtorEq, false_iff]
    rintro rfl
    exact absurd (id.2.symm.trans h) (by simp)
  · rename_i m h
    simp only [reduceCtorEq, false_iff]
    rintro rfl
    exact absurd (id.2.symm.trans h) (by simp)

def addressHex (address : Bytes) : Res Bytes :=
  if address.length ≠ 20 then riverError .badAddress "wrong length" else .ok address

def bytesToAddress (b : Bytes) : Bytes :=
  let b := b.drop (b.length - 20)
  List.replicate (20 - b.length) 0 ++ b

def getUserAddressFromStreamId (id : StreamId) : Res Bytes :=
  match id.type? with
  | some .user | some .userDeviceKey | some .userInbox | some .userSettings =>
    .ok (bytesToAddress ((id.bytes.drop 1).take 20))
  | _ => riverError .badStreamId "invalid stream type for getting user"

def getUserAddressFromStreamIdBytes (b : Bytes) : Res Bytes := do
  let id ← fromBytes b
  getUserAddressFromStreamId id

def userStreamIdBytes (address : Bytes) : Bytes :=
  (StreamType.user.bin :: address ++ List.replicate 11 0)

def userStreamIdFromBytes (address : Bytes) : Res StreamId :=
  if address.length = 20 then fromBytes (userStreamIdBytes address)
  else riverError .badAddress "Bad address bytes"

def validStreamIdOfType (t : StreamType) (b : Bytes) : Bool :=
  match fromBytes b with
  | .ok id => id.type? = some t
  | _ => false

end River.Node
