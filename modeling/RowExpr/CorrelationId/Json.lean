/-
  JSON form of the identifiers of correlation variables: the bare ordinal.
-/
import RowExpr.CorrelationId
import RowExpr.Json.Decoder
import RowExpr.Json.Value

namespace RowExpr.CorrelationId

open Json

def toJson (id : CorrelationId) : Json := .integer id.ordinal.toNat

def decode (reading : Reading) : Decoded CorrelationId := CorrelationId.mk <$> reading.asUInt32

end RowExpr.CorrelationId
