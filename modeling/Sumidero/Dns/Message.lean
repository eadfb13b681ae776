import Mathlib.Data.List.Basic

namespace Sumidero.Dns

/-! DNS messages, as far as the resolver reads or writes them. -/

abbrev Label := List UInt8

/-- A domain name as it stands in a message, case preserved. -/
structure Name where
  labels : List Label
  isFqdn : Bool
deriving Repr, DecidableEq

def asciiLower (byte : UInt8) : UInt8 :=
  if 65 ≤ byte ∧ byte ≤ 90 then byte + 32 else byte

/-- Names that differ in ASCII case only compare equal; this one stands for them. -/
def Name.fold (name : Name) : Name :=
  { name with labels := name.labels.map fun label => label.map asciiLower }

inductive RecordType where
  | A
  | AAAA
  | CNAME
  | SOA
  | ANY
  | Unknown (code : Nat)
deriving Repr, DecidableEq

inductive DNSClass where
  | IN
  | Unknown (code : Nat)
deriving Repr, DecidableEq

inductive ResponseCode where
  | NoError
  | FormErr
  | ServFail
  | NXDomain
  | Refused
  | Unknown (code : Nat)
deriving Repr, DecidableEq

inductive MessageType where
  | Query
  | Response
deriving Repr, DecidableEq

inductive OpCode where
  | Query
  | Unknown (code : Nat)
deriving Repr, DecidableEq

structure SOA where
  mname : Name
  rname : Name
  serial : Nat
  refresh : Nat
  retry : Nat
  expire : Nat
  minimum : UInt32
deriving Repr, DecidableEq

inductive RData where
  | A (address : List UInt8)
  | AAAA (address : List UInt8)
  | CNAME (target : Name)
  | SOA (soa : SOA)
  | Unknown (rtype : RecordType) (bytes : List UInt8)
deriving Repr, DecidableEq

def RData.recordType : RData → RecordType
  | A _ => .A
  | AAAA _ => .AAAA
  | CNAME _ => .CNAME
  | SOA _ => .SOA
  | Unknown rtype _ => rtype

structure Record where
  name : Name
  dnsClass : DNSClass
  ttl : UInt32
  data : RData
deriving Repr, DecidableEq

def Record.recordType (record : Record) : RecordType := record.data.recordType

def Record.fromRdata (name : Name) (ttl : UInt32) (data : RData) : Record :=
  { name, dnsClass := .IN, ttl, data }

structure Query where
  name : Name
  queryType : RecordType
  queryClass : DNSClass
deriving Repr, DecidableEq

/-- `Query::query`: class `IN`. -/
def Query.query (name : Name) (queryType : RecordType) : Query :=
  { name, queryType, queryClass := .IN }

structure Edns where
  maxPayload : Nat
  version : Nat
  dnssecOk : Bool
  options : List (Nat × List UInt8)
deriving Repr, DecidableEq

def Edns.new : Edns :=
  { maxPayload := 512, version := 0, dnssecOk := false, options := [] }

structure Metadata where
  id : Nat
  messageType : MessageType
  opCode : OpCode
  authoritative : Bool
  truncation : Bool
  recursionDesired : Bool
  recursionAvailable : Bool
  authenticData : Bool
  checkingDisabled : Bool
  responseCode : ResponseCode
deriving Repr, DecidableEq

structure Message where
  metadata : Metadata
  queries : List Query
  answers : List Record
  authorities : List Record
  additionals : List Record
  edns : Option Edns
deriving Repr, DecidableEq

namespace Message

def new (id : Nat) (messageType : MessageType) (opCode : OpCode) : Message where
  metadata :=
    { id, messageType, opCode, authoritative := false, truncation := false,
      recursionDesired := false, recursionAvailable := false, authenticData := false,
      checkingDisabled := false, responseCode := .NoError }
  queries := []
  answers := []
  authorities := []
  additionals := []
  edns := none

def responseCode (msg : Message) : ResponseCode := msg.metadata.responseCode

def withResponseCode (msg : Message) (code : ResponseCode) : Message :=
  { msg with metadata := { msg.metadata with responseCode := code } }

def addQuery (msg : Message) (query : Query) : Message :=
  { msg with queries := msg.queries ++ [query] }

def addAnswer (msg : Message) (record : Record) : Message :=
  { msg with answers := msg.answers ++ [record] }

def addAuthority (msg : Message) (record : Record) : Message :=
  { msg with authorities := msg.authorities ++ [record] }

/-- A query with one question, as a client sends it. -/
def asking (id : Nat) (query : Query) : Message :=
  let msg := (new id .Query .Query).addQuery query
  { msg with metadata := { msg.metadata with recursionDesired := true } }

@[simp] theorem withResponseCode_answers (msg : Message) (code : ResponseCode) :
    (msg.withResponseCode code).answers = msg.answers := rfl

@[simp] theorem withResponseCode_responseCode (msg : Message) (code : ResponseCode) :
    (msg.withResponseCode code).responseCode = code := rfl

end Message

end Sumidero.Dns
