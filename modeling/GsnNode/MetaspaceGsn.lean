import GsnNode.AddressText

/-! `metaspace_gsn`: looking a geosub query up by postcode or by county. -/

set_option autoImplicit false

namespace GsnNode

inductive QueryAnswer where
  | prepareFails
  | row : Text → QueryAnswer
  /-- no row, or an error while stepping -/
  | noRow
  deriving DecidableEq

/-- The table `geosub_meta`, by each of the two columns that are searched. -/
structure MetaspaceDb where
  byPostcode : Text → QueryAnswer
  byCounty : Text → QueryAnswer

namespace MetaspaceGsn

def geosubOf : QueryAnswer → Call Text
  | .prepareFails => throws .metaspaceDbFail
  | .row geosub => pure geosub
  | .noRow => pure []

def fromOutcode (db : MetaspaceDb) (outcode : Text) : Call Text := geosubOf (db.byPostcode outcode)

def fromCounty (db : MetaspaceDb) (county : Text) : Call Text := geosubOf (db.byCounty county)

/-- The class `[A-Z,a-z]`, in which the comma is one of the characters. -/
def isOutcodeLetter (c : UInt8) : Bool :=
  (65 ≤ c.toNat && c.toNat ≤ 90) || c == 44 || (97 ≤ c.toNat && c.toNat ≤ 122)

def isOutcodeDigit (c : UInt8) : Bool := 48 ≤ c.toNat && c.toNat ≤ 57

def toLower (c : UInt8) : UInt8 := if 65 ≤ c.toNat ∧ c.toNat ≤ 90 then c + 32 else c

/-- The outcode when the expression matches what `c_str()` shows of the query. -/
def hasOutcode (query : Text) : Option Text :=
  match cStr query with
  | a :: b :: c :: d :: _ =>
    if isOutcodeLetter a ∧ isOutcodeLetter b ∧ isOutcodeDigit c ∧ isOutcodeDigit d then
      some ((query.take 4).map toLower)
    else none
  | _ => none

def resolveGsn (db : MetaspaceDb) (query : Text) : Call Text :=
  if query = [] then throws .metaspaceQueryFail
  else
    match hasOutcode query with
    | some outcode => fromOutcode db outcode
    | none => fromCounty db query

end MetaspaceGsn
end GsnNode
