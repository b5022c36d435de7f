/-
  JSON form of settings.

  All three settings are written. When they are read a missing one takes its default, and a
  name that is no setting is refused as soon as it has been read.
-/
import RowExpr.Config
import RowExpr.Json.Decoder
import RowExpr.Json.Value

namespace RowExpr.Config

open Json

/-- The names of the settings. -/
def settingNames : List String :=
  ["case_sensitive", "share_common_subexpressions", "max_cache_entries"]

def toJson (config : Config) : Json :=
  .object [("case_sensitive", .bool config.caseSensitive),
    ("share_common_subexpressions", .bool config.shareCommonSubexpressions),
    ("max_cache_entries", .integer config.maxCacheEntries.toNat)]

/-- The settings given so far. -/
structure Parts where
  caseSensitive : Option Bool := none
  shareCommonSubexpressions : Option Bool := none
  maxCacheEntries : Option UInt64 := none

/-- The settings given, and the defaults of the others. -/
def Parts.config (parts : Parts) : Config :=
  let defaults : Config := {}
  ⟨parts.caseSensitive.getD defaults.caseSensitive,
    parts.shareCommonSubexpressions.getD defaults.shareCommonSubexpressions,
    parts.maxCacheEntries.getD defaults.maxCacheEntries⟩

/-- Take one member of an object of settings. -/
def takeMember (parts : Parts) (key : String) (value : Reading) : Decoded Parts :=
  match key with
  | "case_sensitive" => do
    return { parts with caseSensitive := ← fill key parts.caseSensitive value.asBool }
  | "share_common_subexpressions" => do
    return { parts with
      shareCommonSubexpressions := ← fill key parts.shareCommonSubexpressions value.asBool }
  | "max_cache_entries" => do
    return { parts with maxCacheEntries := ← fill key parts.maxCacheEntries value.asUInt64 }
  | _ => refuse (.unknownField key settingNames)

/-- An item that may be missing. -/
def optionalItem {α : Type} (decode : Reading → Decoded α) :
    List Reading → Decoded (Option α × List Reading)
  | [] => .ok (none, [])
  | item :: items => (fun value => (some value, items)) <$> decode item

def decode (levels : Nat) : Reading → Decoded Config :=
  record "struct RexConfig" levels
    (fun members => Parts.config <$> foldMembers takeMember {} members)
    (fun items => do
      let (caseSensitive, items) ← optionalItem Reading.asBool items
      let (shareCommonSubexpressions, items) ← optionalItem Reading.asBool items
      let (maxCacheEntries, items) ← optionalItem Reading.asUInt64 items
      noMoreItems items
      return Parts.config ⟨caseSensitive, shareCommonSubexpressions, maxCacheEntries⟩)

end RowExpr.Config
