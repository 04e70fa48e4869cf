import HftSystem.Exchange.Messages
import HftSystem.Lib.FixedCodec

set_option relaxedAutoImplicit false
set_option autoImplicit false

/-!
# The bytes of requests and responses

Requests and responses are sent as they lie in memory: little-endian integers, one byte for each
enumeration. `client_request.h` packs its structures. In `client_response.h` the word `pragma` is
misspelled, so that its structures are packed as the line intends or aligned as without it; the
layout is a parameter, `Packing`, which the exchange and its clients share.

`MEClientRequest` and `MEClientResponse` have no values for the bytes of `type_` that name no
enumerator. Such a byte is read as `INVALID`, which every `switch` over it treats in the same way.

## Main definitions

* `Exchange.OMClientRequest`, `Exchange.OMClientResponse` — the numbered messages.
* `Exchange.MEClientRequest.codec`, `Exchange.OMClientRequest.codec` — the layout of requests.
* `Exchange.MEClientResponse.codec`, `Exchange.OMClientResponse.codec` — the layout of responses.
-/

namespace Exchange

open Common Wire

/-! ## Enumerations -/

/-- The byte of a side. -/
def sideToByte : Side → ℤ
  | .invalid => 0
  | .buy => 1
  | .sell => -1
  | .other byte => byte

/-- The side that a byte stands for. -/
def sideOfByte (byte : ℤ) : Side :=
  if byte = 0 then .invalid else if byte = 1 then .buy else if byte = -1 then .sell else .other byte

/-- A side that names no enumerator has a byte of its own. -/
def SideByte (side : Side) : Prop := sideOfByte (sideToByte side) = side

/-- Whether a side is one that a byte can name can be evaluated. -/
instance (side : Side) : Decidable (SideByte side) := inferInstanceAs (Decidable (_ = _))

/-- The byte of a request type. -/
def requestTypeToByte : ClientRequestType → ℕ
  | .invalid => 0
  | .new => 1
  | .cancel => 2

/-- The request type that a byte stands for. -/
def requestTypeOfByte (byte : ℕ) : ClientRequestType :=
  if byte = 1 then .new else if byte = 2 then .cancel else .invalid

/-- The type of a request is read as it was written. -/
lemma requestTypeOfByte_toByte (type : ClientRequestType) :
    requestTypeOfByte (requestTypeToByte type) = type := by
  cases type <;> rfl

/-- The byte of a response type. -/
def responseTypeToByte : ClientResponseType → ℕ
  | .invalid => 0
  | .accepted => 1
  | .canceled => 2
  | .filled => 3
  | .cancelRejected => 4

/-- The response type that a byte stands for. -/
def responseTypeOfByte (byte : ℕ) : ClientResponseType :=
  if byte = 1 then .accepted else if byte = 2 then .canceled else if byte = 3 then .filled
  else if byte = 4 then .cancelRejected else .invalid

/-- So is the type of a response. -/
lemma responseTypeOfByte_toByte (type : ClientResponseType) :
    responseTypeOfByte (responseTypeToByte type) = type := by
  cases type <;> rfl

/-! ## Requests -/

/-- `OMClientRequest`. -/
structure OMClientRequest where
  seqNum : ℕ := 0
  meClientRequest : MEClientRequest := {}
  deriving DecidableEq, Repr

/-- The fields of a request in the order of their declaration. -/
def MEClientRequest.fields (r : MEClientRequest) : ℕ × ℕ × ℕ × ℕ × ℤ × ℤ × ℕ :=
  (requestTypeToByte r.type, r.clientId, r.tickerId, r.orderId, sideToByte r.side, r.price, r.qty)

/-- The request with these fields. -/
def MEClientRequest.ofFields (x : ℕ × ℕ × ℕ × ℕ × ℤ × ℤ × ℕ) : MEClientRequest :=
  { type := requestTypeOfByte x.1, clientId := x.2.1, tickerId := x.2.2.1, orderId := x.2.2.2.1,
    side := sideOfByte x.2.2.2.2.1, price := x.2.2.2.2.2.1, qty := x.2.2.2.2.2.2 }

/-- So is a request, field by field. -/
lemma MEClientRequest.ofFields_fields (r : MEClientRequest) (h : SideByte r.side) :
    MEClientRequest.ofFields r.fields = r := by
  unfold MEClientRequest.ofFields MEClientRequest.fields
  rw [requestTypeOfByte_toByte, show sideOfByte (sideToByte r.side) = r.side from h]

/-- The layout of `MEClientRequest`. -/
def MEClientRequest.codec : FixedCodec MEClientRequest :=
  ((unsigned 1).pair <| (unsigned 8).pair <| (unsigned 4).pair <| (unsigned 8).pair <|
    (signed 1).pair <| (signed 8).pair <| unsigned 4).iso
    MEClientRequest.fields MEClientRequest.ofFields (fun r => SideByte r.side)
    MEClientRequest.ofFields_fields

/-- What the fields can hold. -/
lemma MEClientRequest.fits_iff {r : MEClientRequest} : MEClientRequest.codec.Fits r ↔
    r.clientId < 2 ^ 64 ∧ r.tickerId < 2 ^ 32 ∧ r.orderId < 2 ^ 64 ∧ SideByte r.side ∧
      -2 ^ 7 ≤ sideToByte r.side ∧ sideToByte r.side < 2 ^ 7 ∧
      -2 ^ 63 ≤ r.price ∧ r.price < 2 ^ 63 ∧ r.qty < 2 ^ 32 := by
  have htype : requestTypeToByte r.type < 256 := by cases r.type <;> decide
  show (_ < 256 ^ 1 ∧ r.clientId < 256 ^ 8 ∧ r.tickerId < 256 ^ 4 ∧ r.orderId < 256 ^ 8 ∧
    (-((256 ^ 1 : ℕ) : ℤ) ≤ sideToByte r.side * 2 ∧ sideToByte r.side * 2 < (256 ^ 1 : ℕ)) ∧
    (-((256 ^ 8 : ℕ) : ℤ) ≤ r.price * 2 ∧ r.price * 2 < (256 ^ 8 : ℕ)) ∧ r.qty < 256 ^ 4) ∧
    SideByte r.side ↔ _
  constructor
  · rintro ⟨⟨-, hclient, hticker, horder, hside, hprice, hqty⟩, hbyte⟩
    refine ⟨?_, ?_, ?_, hbyte, ?_, ?_, ?_, ?_, ?_⟩ <;> omega
  · rintro ⟨hclient, hticker, horder, hbyte, hside, hside', hprice, hprice', hqty⟩
    refine ⟨⟨htype, ?_, ?_, ?_, ⟨?_, ?_⟩, ⟨?_, ?_⟩, ?_⟩, hbyte⟩ <;> omega

/-- The layout of `OMClientRequest`. -/
def OMClientRequest.codec : FixedCodec OMClientRequest :=
  ((unsigned 8).pair MEClientRequest.codec).iso (fun m => (m.seqNum, m.meClientRequest))
    (fun x => { seqNum := x.1, meClientRequest := x.2 }) (fun _ => True) fun _ _ => rfl

/-- What the record of a message can hold. -/
lemma OMClientRequest.fits_iff {m : OMClientRequest} : OMClientRequest.codec.Fits m ↔
    m.seqNum < 2 ^ 64 ∧ MEClientRequest.codec.Fits m.meClientRequest := by
  show (m.seqNum < 256 ^ 8 ∧ _) ∧ True ↔ _
  rw [and_true, show (256 ^ 8 : ℕ) = 2 ^ 64 by decide]

/-! ## Responses -/

/-- How the compiler lays out the structures of `client_response.h`. -/
inductive Packing
  | packed
  | aligned
  deriving DecidableEq, Repr

/-- The bytes that alignment puts in front of a field. -/
def Packing.gap : Packing → ℕ → ℕ
  | .packed, _ => 0
  | .aligned, n => n

/-- `OMClientResponse`. -/
structure OMClientResponse where
  seqNum : ℕ := 0
  meClientResponse : MEClientResponse := {}
  deriving DecidableEq, Repr

/-- The fields of a response in the order of their declaration, with the gaps. -/
def MEClientResponse.fields (r : MEClientResponse) :
    ℕ × Unit × ℕ × ℕ × Unit × ℕ × ℕ × ℤ × Unit × ℤ × ℕ × ℕ :=
  (responseTypeToByte r.type, (), r.clientId, r.tickerId, (), r.clientOrderId, r.marketOrderId,
    sideToByte r.side, (), r.price, r.execQty, r.leavesQty)

/-- The response with these fields. -/
def MEClientResponse.ofFields (x : ℕ × Unit × ℕ × ℕ × Unit × ℕ × ℕ × ℤ × Unit × ℤ × ℕ × ℕ) :
    MEClientResponse :=
  { type := responseTypeOfByte x.1, clientId := x.2.2.1, tickerId := x.2.2.2.1,
    clientOrderId := x.2.2.2.2.2.1, marketOrderId := x.2.2.2.2.2.2.1,
    side := sideOfByte x.2.2.2.2.2.2.2.1, price := x.2.2.2.2.2.2.2.2.2.1,
    execQty := x.2.2.2.2.2.2.2.2.2.2.1, leavesQty := x.2.2.2.2.2.2.2.2.2.2.2 }

/-- So is a response. -/
lemma MEClientResponse.ofFields_fields (r : MEClientResponse) (h : SideByte r.side) :
    MEClientResponse.ofFields r.fields = r := by
  unfold MEClientResponse.ofFields MEClientResponse.fields
  rw [responseTypeOfByte_toByte, show sideOfByte (sideToByte r.side) = r.side from h]

/-- The layout of `MEClientResponse`. -/
def MEClientResponse.codec (packing : Packing) : FixedCodec MEClientResponse :=
  ((unsigned 1).pair <| (padding (packing.gap 7)).pair <| (unsigned 8).pair <|
    (unsigned 4).pair <| (padding (packing.gap 4)).pair <| (unsigned 8).pair <|
    (unsigned 8).pair <| (signed 1).pair <| (padding (packing.gap 7)).pair <|
    (signed 8).pair <| (unsigned 4).pair <| unsigned 4).iso
    MEClientResponse.fields MEClientResponse.ofFields (fun r => SideByte r.side)
    MEClientResponse.ofFields_fields

/-- What the fields can hold. -/
lemma MEClientResponse.fits_iff {packing : Packing} {r : MEClientResponse} :
    (MEClientResponse.codec packing).Fits r ↔
      r.clientId < 2 ^ 64 ∧ r.tickerId < 2 ^ 32 ∧ r.clientOrderId < 2 ^ 64 ∧
      r.marketOrderId < 2 ^ 64 ∧ SideByte r.side ∧
      -2 ^ 7 ≤ sideToByte r.side ∧ sideToByte r.side < 2 ^ 7 ∧
      -2 ^ 63 ≤ r.price ∧ r.price < 2 ^ 63 ∧ r.execQty < 2 ^ 32 ∧ r.leavesQty < 2 ^ 32 := by
  have htype : responseTypeToByte r.type < 256 := by cases r.type <;> decide
  show (_ < 256 ^ 1 ∧ True ∧ r.clientId < 256 ^ 8 ∧ r.tickerId < 256 ^ 4 ∧ True ∧
    r.clientOrderId < 256 ^ 8 ∧ r.marketOrderId < 256 ^ 8 ∧
    (-((256 ^ 1 : ℕ) : ℤ) ≤ sideToByte r.side * 2 ∧ sideToByte r.side * 2 < (256 ^ 1 : ℕ)) ∧ True ∧
    (-((256 ^ 8 : ℕ) : ℤ) ≤ r.price * 2 ∧ r.price * 2 < (256 ^ 8 : ℕ)) ∧
    r.execQty < 256 ^ 4 ∧ r.leavesQty < 256 ^ 4) ∧ SideByte r.side ↔ _
  constructor
  · rintro ⟨⟨-, -, hclient, hticker, -, horder, hmarket, hside, -, hprice, hexec, hleaves⟩, hbyte⟩
    refine ⟨?_, ?_, ?_, ?_, hbyte, ?_, ?_, ?_, ?_, ?_, ?_⟩ <;> omega
  · rintro ⟨hclient, hticker, horder, hmarket, hbyte, hside, hside', hprice, hprice', hexec, hleaves⟩
    refine ⟨⟨htype, trivial, ?_, ?_, trivial, ?_, ?_, ⟨?_, ?_⟩, trivial, ⟨?_, ?_⟩, ?_, ?_⟩, hbyte⟩
      <;> omega

/-- The layout of `OMClientResponse`, in which no gap precedes the response. -/
def OMClientResponse.codec (packing : Packing) : FixedCodec OMClientResponse :=
  ((unsigned 8).pair (MEClientResponse.codec packing)).iso (fun m => (m.seqNum, m.meClientResponse))
    (fun x => { seqNum := x.1, meClientResponse := x.2 }) (fun _ => True) fun _ _ => rfl

/-- What the record of a message can hold. -/
lemma OMClientResponse.fits_iff {packing : Packing} {m : OMClientResponse} :
    (OMClientResponse.codec packing).Fits m ↔
      m.seqNum < 2 ^ 64 ∧ (MEClientResponse.codec packing).Fits m.meClientResponse := by
  show (m.seqNum < 256 ^ 8 ∧ _) ∧ True ↔ _
  rw [and_true, show (256 ^ 8 : ℕ) = 2 ^ 64 by decide]

/-- The sizes of the two structures that gateways read, in either layout. -/
example : OMClientRequest.codec.size = 42 ∧ (OMClientResponse.codec .packed).size = 54 ∧
    (OMClientResponse.codec .aligned).size = 72 := by
  decide

end Exchange
