/-
  Which texts settings are loaded from, and which settings these are.

  A member of an object gives a setting if its key reads as the name of one and its value is of the
  type that belongs to it (`Setting.GivenBy`). `takeMember_eq_ok_iff` is the step: a member is taken
  exactly if it gives a setting that was not given before. `foldMembers_eq_ok_iff` is the run: the
  members are taken exactly if they give settings of different names. All others are `Unfit`, and
  an object that begins with such is refused whatever else is in the text (`ofText_of_unfit`).

  The settings loaded are those given and, for the others, the defaults (`has_config_iff`). A
  bound of zero is refused only behind all that (`ofText_of_given`).
-/
import RowExpr.Proofs.Request
import RowExpr.Proofs.RoundTrip

namespace RowExpr

open Json

/-! ## Values -/

namespace Json

namespace Reading

theorem wrongType_ne_ok {α : Type} (reading : Reading) (expected : String) (a : α) :
    reading.wrongType expected ≠ .ok a := by
  unfold wrongType
  split <;> exact fun h => (nomatch h)

theorem asBool_eq_ok_iff {reading : Reading} {b : Bool} :
    reading.asBool = .ok b ↔ reading = .bool b := by
  cases reading <;> simp [asBool, wrongType_ne_ok]

/-- A number without sign, fraction and exponent, whose digits have this value. -/
def IsNatural (reading : Reading) (n : Nat) : Prop :=
  ∃ numeral, reading = .number numeral ∧ numeral.negative = false ∧ numeral.fraction = [] ∧
    numeral.exponent = [] ∧ digitsValue numeral.whole = n

theorem number?_eq_natural_iff {numeral : Numeral} {n : Nat} :
    numeral.number? = some (.integer n) ↔
      n < UInt64.size ∧ (Reading.number numeral).IsNatural n := by
  have hnatural : (Reading.number numeral).IsNatural n ↔ numeral.negative = false ∧
      numeral.fraction = [] ∧ numeral.exponent = [] ∧ digitsValue numeral.whole = n := by
    simp [IsNatural]
  rw [hnatural]
  unfold Numeral.number?
  dsimp only
  split
  · rename_i hunsigned
    simp at hunsigned
    simp [hunsigned]
    omega
  · rename_i hnot
    split
    · rename_i hsigned
      simp at hsigned
      simp [hsigned]
      omega
    · refine iff_of_false (by simp) ?_
      rintro ⟨hsize, hpositive, hfraction, hexponent, hvalue⟩
      exact hnot (by simp [hpositive, hfraction, hexponent, hvalue, hsize])

theorem asInteger_eq_ok_iff {low high m : Int} {expected : String} {reading : Reading} :
    reading.asInteger low high expected = .ok m ↔
      (low ≤ m ∧ m ≤ high) ∧
        ∃ numeral, reading = .number numeral ∧ numeral.number? = some (.integer m) := by
  unfold asInteger
  cases reading with
  | number numeral =>
    rcases hnumber : numeral.number? with _ | ⟨k⟩ | f
    · simp [malformed, hnumber]
    · by_cases hbounds : low ≤ k ∧ k ≤ high
      · simp [hbounds, hnumber]
        rintro rfl
        exact hbounds
      · simp [hbounds, refuse, hnumber]
        rintro hlow hhigh rfl
        exact hbounds ⟨hlow, hhigh⟩
    · simp [refuse, hnumber]
  | null | bool _ | string _ | array _ | object _ | broken => simp [wrongType_ne_ok]

theorem asUInt64_eq_ok_iff {reading : Reading} {n : UInt64} :
    reading.asUInt64 = .ok n ↔ reading.IsNatural n.toNat := by
  show (reading.asInteger 0 (UInt64.size - 1) "usize").map _ = .ok n ↔ _
  rw [map_eq_ok_iff]
  simp only [asInteger_eq_ok_iff]
  constructor
  · rintro ⟨m, ⟨⟨hlow, -⟩, numeral, rfl, hnumber⟩, rfl⟩
    obtain ⟨k, rfl⟩ := Int.eq_ofNat_of_zero_le hlow
    obtain ⟨hsize, hnatural⟩ := number?_eq_natural_iff.mp hnumber
    rw [Int.toNat_natCast, UInt64.toNat_ofNat_of_lt' hsize]
    exact hnatural
  · intro h
    have hnatural := h
    obtain ⟨numeral, rfl, -⟩ := hnatural
    have hsize : n.toNat < UInt64.size := n.toNat_lt
    refine ⟨n.toNat, ⟨⟨by omega, by omega⟩, numeral, rfl, ?_⟩, ?_⟩
    · exact number?_eq_natural_iff.mpr ⟨hsize, h⟩
    · rw [Int.toNat_natCast, UInt64.ofNat_toNat]

end Reading

/-! ## Runs over members -/

section Members

/-- The key of a member, if it is text. -/
def keyOf? (member : Option (List Piece) × Reading) : Option String :=
  member.1.bind Piece.text?

variable {σ : Type} {take : σ → String → Reading → Decoded σ}

theorem foldMembers_cons_eq_ok_iff {state after : σ} {member : Option (List Piece) × Reading}
    {members : List (Option (List Piece) × Reading)} :
    foldMembers take state (member :: members) = .ok after ↔
      ∃ key between, keyOf? member = some key ∧
        take state key member.2 = .ok between ∧ foldMembers take between members = .ok after := by
  obtain ⟨key, value⟩ := member
  cases key with
  | none => simp [foldMembers, keyOf?, malformed]
  | some pieces =>
    cases hkey : Piece.text? pieces with
    | none => simp [foldMembers, keyOf?, hkey, malformed]
    | some text =>
      cases htake : take state text value <;> simp [foldMembers, keyOf?, hkey, htake]

/-- Members that are not taken are not taken with more behind them. -/
theorem foldMembers_append_error {state : σ} {members : List (Option (List Piece) × Reading)}
    {fault : Fault} (h : foldMembers take state members = .error fault)
    (more : List (Option (List Piece) × Reading)) :
    foldMembers take state (members ++ more) = .error fault := by
  induction members generalizing state with
  | nil => cases h
  | cons member members ih =>
    obtain ⟨key, value⟩ := member
    cases key with
    | none => exact h
    | some pieces =>
      rw [foldMembers] at h
      rw [List.cons_append, foldMembers]
      cases hkey : Piece.text? pieces with
      | none =>
        rw [hkey] at h
        exact h
      | some text =>
        simp only [hkey] at h ⊢
        cases htake : take state text value with
        | error _ =>
          rw [htake] at h
          exact h
        | ok between =>
          rw [htake] at h
          exact ih h

end Members

end Json

/-! ## Settings -/

/-- One setting and its value. -/
inductive Setting where
  | caseSensitive (value : Bool)
  | shareCommonSubexpressions (value : Bool)
  | maxCacheEntries (value : UInt64)
deriving DecidableEq

namespace Setting

def name : Setting → String
  | caseSensitive _ => "case_sensitive"
  | shareCommonSubexpressions _ => "share_common_subexpressions"
  | maxCacheEntries _ => "max_cache_entries"

/-- How the value of a setting is given: a truth value, or a number of 64 bits. -/
def IsValue : Setting → Json.Reading → Prop
  | caseSensitive b, value => value = .bool b
  | shareCommonSubexpressions b, value => value = .bool b
  | maxCacheEntries n, value => value.IsNatural n.toNat

/-- The member of an object gives this setting. -/
def GivenBy (setting : Setting) (member : Option (List Piece) × Json.Reading) : Prop :=
  keyOf? member = some setting.name ∧ setting.IsValue member.2

end Setting

namespace Config

/-- The settings are these, as far as this one goes. -/
def Has (config : Config) : Setting → Prop
  | .caseSensitive b => config.caseSensitive = b
  | .shareCommonSubexpressions b => config.shareCommonSubexpressions = b
  | .maxCacheEntries n => config.maxCacheEntries = n

namespace Parts

/-- Nothing is given yet under the name of this setting. -/
def Lacks (parts : Parts) : Setting → Prop
  | .caseSensitive _ => parts.caseSensitive = none
  | .shareCommonSubexpressions _ => parts.shareCommonSubexpressions = none
  | .maxCacheEntries _ => parts.maxCacheEntries = none

def put (parts : Parts) : Setting → Parts
  | .caseSensitive b => { parts with caseSensitive := some b }
  | .shareCommonSubexpressions b => { parts with shareCommonSubexpressions := some b }
  | .maxCacheEntries n => { parts with maxCacheEntries := some n }

theorem lacks_empty (setting : Setting) : Lacks {} setting := by
  cases setting <;> rfl

theorem lacks_put_iff {parts : Parts} {given setting : Setting} :
    (parts.put given).Lacks setting ↔ parts.Lacks setting ∧ setting.name ≠ given.name := by
  cases given <;> cases setting <;> simp [put, Lacks, Setting.name]

theorem has_put_iff {parts : Parts} {given setting : Setting} :
    (parts.put given).config.Has setting ↔
      setting = given ∨ setting.name ≠ given.name ∧ parts.config.Has setting := by
  cases given <;> cases setting <;> simp [put, config, Has, Setting.name, eq_comm]

/-- Of settings of different names all are there in the end, whatever their order; the others
    are as before. -/
theorem has_foldl_put_iff {settings : List Setting} (h : (settings.map Setting.name).Nodup)
    {parts : Parts} {setting : Setting} :
    (settings.foldl put parts).config.Has setting ↔
      setting ∈ settings ∨
        setting.name ∉ settings.map Setting.name ∧ parts.config.Has setting := by
  induction settings generalizing parts with
  | nil => simp
  | cons given settings ih =>
    obtain ⟨hnew, hrest⟩ := List.nodup_cons.mp h
    rw [List.foldl_cons, ih hrest, has_put_iff, List.mem_cons, List.map_cons, List.mem_cons]
    by_cases heq : setting = given
    · subst heq
      simp [hnew]
    · simp only [heq, false_or, not_or]
      rw [and_left_comm, and_assoc]

end Parts

theorem fill_bind_eq_ok_iff {α : Type} {name : String} {place : Option α} {value : Decoded α}
    {set : Option α → Parts} {after : Parts} :
    (do return set (← fill name place value) : Decoded Parts) = .ok after ↔
      place = none ∧ ∃ a, value = .ok a ∧ set (some a) = after := by
  cases place with
  | some _ => simp [fill, refuse, bind, Except.bind]
  | none =>
    rw [fill_none, bind_eq_ok_iff]
    cases value <;> simp [Functor.map, Except.map, pure, Except.pure]

/-- Filling the place of a setting is taking the settings of its name, `make a` for a value `a`. -/
theorem fill_setting_eq_ok_iff {α : Type} (make : α → Setting) {parts after : Parts}
    {key : String} {value : Json.Reading} {place : Option α} {decoded : Decoded α}
    {set : Option α → Parts}
    (hname : ∀ setting : Setting, setting.name = key ↔ ∃ a, make a = setting)
    (hvalue : ∀ a, decoded = .ok a ↔ (make a).IsValue value)
    (hplace : ∀ a, place = none ↔ parts.Lacks (make a))
    (hset : ∀ a, set (some a) = parts.put (make a)) :
    (do return set (← fill key place decoded) : Decoded Parts) = .ok after ↔
      ∃ setting : Setting, setting.name = key ∧ setting.IsValue value ∧ parts.Lacks setting ∧
        parts.put setting = after := by
  rw [fill_bind_eq_ok_iff]
  constructor
  · rintro ⟨hlacks, a, ha, hafter⟩
    exact ⟨make a, (hname _).mpr ⟨a, rfl⟩, (hvalue a).mp ha, (hplace a).mp hlacks,
      (hset a).symm.trans hafter⟩
  · rintro ⟨setting, hsetting, ha, hlacks, hafter⟩
    obtain ⟨a, rfl⟩ := (hname setting).mp hsetting
    exact ⟨(hplace a).mpr hlacks, a, (hvalue a).mpr ha, (hset a).trans hafter⟩

/-- A member is taken exactly if it gives a setting that was not given before. -/
theorem takeMember_eq_ok_iff {parts after : Parts} {key : String} {value : Json.Reading} :
    takeMember parts key value = .ok after ↔
      ∃ setting : Setting, setting.name = key ∧ setting.IsValue value ∧ parts.Lacks setting ∧
        parts.put setting = after := by
  unfold takeMember
  split
  · exact fill_setting_eq_ok_iff .caseSensitive
      (fun setting => by cases setting <;> simp [Setting.name])
      (fun _ => Json.Reading.asBool_eq_ok_iff) (fun _ => Iff.rfl) fun _ => rfl
  · exact fill_setting_eq_ok_iff .shareCommonSubexpressions
      (fun setting => by cases setting <;> simp [Setting.name])
      (fun _ => Json.Reading.asBool_eq_ok_iff) (fun _ => Iff.rfl) fun _ => rfl
  · exact fill_setting_eq_ok_iff .maxCacheEntries
      (fun setting => by cases setting <;> simp [Setting.name])
      (fun _ => Json.Reading.asUInt64_eq_ok_iff) (fun _ => Iff.rfl) fun _ => rfl
  · rename_i hcase hshare hbound
    refine iff_of_false (by simp [refuse]) ?_
    rintro ⟨setting, rfl, -⟩
    cases setting with
    | caseSensitive _ => exact hcase rfl
    | shareCommonSubexpressions _ => exact hshare rfl
    | maxCacheEntries _ => exact hbound rfl

/-- Members are taken exactly if they give settings of different names, none given before. -/
theorem foldMembers_eq_ok_iff {parts after : Parts}
    {members : List (Option (List Piece) × Json.Reading)} :
    foldMembers takeMember parts members = .ok after ↔
      ∃ settings, List.Forall₂ Setting.GivenBy settings members ∧
        (settings.map Setting.name).Nodup ∧ (∀ setting ∈ settings, parts.Lacks setting) ∧
        settings.foldl Parts.put parts = after := by
  induction members generalizing parts with
  | nil =>
    simp [foldMembers]
  | cons member members ih =>
    simp only [foldMembers_cons_eq_ok_iff, takeMember_eq_ok_iff, ih]
    constructor
    · rintro ⟨_, _, hkey, ⟨setting, rfl, hvalue, hlacks, rfl⟩, settings, hgiven, hnodup, hothers,
        hafter⟩
      refine ⟨setting :: settings, .cons ⟨hkey, hvalue⟩ hgiven, ?_, ?_, hafter⟩
      · refine List.nodup_cons.mpr ⟨fun hmem => ?_, hnodup⟩
        obtain ⟨other, hother, hname⟩ := List.mem_map.mp hmem
        exact (Parts.lacks_put_iff.mp (hothers other hother)).2 hname
      · refine List.forall_mem_cons.mpr ⟨hlacks, fun other hother => ?_⟩
        exact (Parts.lacks_put_iff.mp (hothers other hother)).1
    · rintro ⟨settings, hgiven, hnodup, hlacks, hafter⟩
      obtain ⟨setting, others, hsetting, hothers, rfl⟩ := List.forall₂_cons_right_iff.mp hgiven
      obtain ⟨hnew, hnodup⟩ := List.nodup_cons.mp hnodup
      obtain ⟨hlacksSetting, hlacks⟩ := List.forall_mem_cons.mp hlacks
      refine ⟨_, _, hsetting.1, ⟨setting, rfl, hsetting.2, hlacksSetting, rfl⟩, others, hothers,
        hnodup, fun other hother => ?_, hafter⟩
      refine Parts.lacks_put_iff.mpr ⟨hlacks other hother, fun hname => hnew ?_⟩
      exact List.mem_map.mpr ⟨other, hother, hname⟩

/-! ## Loading -/

section Loading

variable {text : String} {members : List (Option (List Piece) × Json.Reading)}
  {settings : List Setting}

theorem validate_eq_error_iff {config : Config} {cause : Error} :
    config.validate = .error cause ↔ config.isValid ≠ true ∧ .zeroCacheBound = cause := by
  unfold validate
  by_cases h : config.isValid = true <;> simp [h]

theorem decode_members (members : List (Option (List Piece) × Json.Reading)) :
    decode depthLimit (.object members) = Parts.config <$> foldMembers takeMember {} members :=
  rfl

theorem isValid_iff {config : Config} :
    config.isValid = true ↔ ¬ config.Has (.maxCacheEntries 0) := bne_iff_ne

/-- What is put together from settings of different names has those, and the defaults of the
    others. -/
theorem has_config_iff (h : (settings.map Setting.name).Nodup) (setting : Setting) :
    (settings.foldl Parts.put {}).config.Has setting ↔
      setting ∈ settings ∨ setting.name ∉ settings.map Setting.name ∧ Has {} setting :=
  Parts.has_foldl_put_iff h

theorem isValid_config_iff (h : (settings.map Setting.name).Nodup) :
    (settings.foldl Parts.put {}).config.isValid = true ↔ .maxCacheEntries 0 ∉ settings := by
  have hdefault : ¬ Has {} (.maxCacheEntries 0) := isValid_iff.mp isValid_default
  rw [isValid_iff, has_config_iff h]
  simp [hdefault]

/-- The settings from an object of settings are those given and the defaults, if allowed. -/
theorem ofText_of_given (htext : (Json.Reading.object members).PaddedBy text.toList)
    (hgiven : List.Forall₂ Setting.GivenBy settings members)
    (hnames : (settings.map Setting.name).Nodup) :
    ofText text = (settings.foldl Parts.put {}).config.validate := by
  have htaken : foldMembers takeMember {} members = .ok (settings.foldl Parts.put {}) :=
    foldMembers_eq_ok_iff.mpr
      ⟨settings, hgiven, hnames, fun setting _ => Parts.lacks_empty setting, rfl⟩
  have hdecoded : decodeText decode text = .ok (settings.foldl Parts.put {}).config := by
    unfold decodeText
    rw [Json.Reading.ofText_spelledBy htext]
    simp only [decode_members, htaken]
    rfl
  unfold ofText
  rw [hdecoded]

/-- Some member gives no setting, or two have one key. -/
def Unfit (members : List (Option (List Piece) × Json.Reading)) : Prop :=
  (∃ member ∈ members, ∀ setting : Setting, ¬ setting.GivenBy member) ∨
    ¬ (members.map keyOf?).Nodup

theorem exists_forall₂_givenBy_iff :
    (∃ settings, List.Forall₂ Setting.GivenBy settings members) ↔
      ∀ member ∈ members, ∃ setting : Setting, setting.GivenBy member := by
  constructor
  · rintro ⟨settings, h⟩
    induction h with
    | nil => exact List.forall_mem_nil _
    | cons hgiven _ ih => exact List.forall_mem_cons.mpr ⟨⟨_, hgiven⟩, ih⟩
  · intro h
    induction members with
    | nil => exact ⟨[], .nil⟩
    | cons member members ih =>
      obtain ⟨⟨setting, hsetting⟩, hmembers⟩ := List.forall_mem_cons.mp h
      obtain ⟨settings, hsettings⟩ := ih hmembers
      exact ⟨setting :: settings, .cons hsetting hsettings⟩

theorem keys_of_givenBy (h : List.Forall₂ Setting.GivenBy settings members) :
    members.map keyOf? = (settings.map Setting.name).map some := by
  induction h with
  | nil => rfl
  | cons hgiven _ ih => rw [List.map_cons, List.map_cons, List.map_cons, ih, hgiven.1]

/-- Members are fit exactly if they give settings of different names. -/
theorem not_unfit_iff :
    ¬ Unfit members ↔ ∃ settings, List.Forall₂ Setting.GivenBy settings members ∧
      (settings.map Setting.name).Nodup := by
  unfold Unfit
  push Not
  rw [← exists_forall₂_givenBy_iff]
  constructor
  · rintro ⟨⟨settings, hgiven⟩, hkeys⟩
    rw [keys_of_givenBy hgiven] at hkeys
    exact ⟨settings, hgiven, hkeys.of_map _⟩
  · rintro ⟨settings, hgiven, hnames⟩
    refine ⟨⟨settings, hgiven⟩, ?_⟩
    rw [keys_of_givenBy hgiven]
    exact hnames.map fun _ _ => Option.some_inj.mp

/-- Unfit members are not taken. -/
theorem not_taken_of_unfit (h : Unfit members) (after : Parts) :
    foldMembers takeMember {} members ≠ .ok after := by
  intro htaken
  obtain ⟨settings, hgiven, hnames, -⟩ := foldMembers_eq_ok_iff.mp htaken
  exact not_unfit_iff.mpr ⟨settings, hgiven, hnames⟩ h

/-- A text that begins with an object whose first members are unfit is refused, whatever follows
    them. -/
theorem ofText_of_unfit {before cs rest : List Char}
    (htext : text.toList = before ++ '\x7b' :: (cs ++ rest)) (hbefore : Blank before)
    (hmembers : MembersSpelledBy members cs) (hrest : Ends rest) (hunfit : Unfit members) :
    ∃ fault, ofText text = .error (.configFault fault) := by
  obtain ⟨more, left, hread⟩ := Json.Reading.ofText_members htext hbefore hmembers hrest
  obtain ⟨fault, hfault⟩ : ∃ fault, foldMembers takeMember {} members = .error fault := by
    cases htaken : foldMembers takeMember {} members with
    | error fault => exact ⟨fault, rfl⟩
    | ok after => exact absurd htaken (not_taken_of_unfit hunfit after)
  have hdecoded : decodeText decode text = .error fault := by
    unfold decodeText
    rw [hread]
    simp only [decode_members, foldMembers_append_error hfault]
    rfl
  refine ⟨fault, ?_⟩
  unfold ofText
  rw [hdecoded]

theorem ofText_eq_ok {config : Config} (h : ofText text = .ok config) :
    config.isValid = true := by
  unfold ofText at h
  split at h
  · obtain ⟨hvalid, rfl⟩ := validate_eq_ok_iff.mp h
    exact hvalid
  · cases h

theorem ofText_toJson_text (config : Config) : ofText config.toJson.text = config.validate := by
  unfold ofText
  rw [decodeText_text, show depthLimit = 126 + 1 from rfl, decode_toJson]

end Loading

/-- An object of settings, each given at most once and in any order, is loaded as the settings
    given and the defaults of the others, unless the bound given is zero. An object with another
    member or a key given twice is a fault of the text, whatever else the text holds. So no bound
    of zero is ever loaded or built with, and settings that are allowed are loaded again from the
    text that is written for them. -/
theorem ofText_loads :
    (∀ text members settings, (Json.Reading.object members).PaddedBy text.toList →
      List.Forall₂ Setting.GivenBy settings members → (settings.map Setting.name).Nodup →
      (.maxCacheEntries 0 ∈ settings → ofText text = .error .zeroCacheBound) ∧
      (.maxCacheEntries 0 ∉ settings → ∃ config, ofText text = .ok config ∧
        ∀ setting, config.Has setting ↔ setting ∈ settings ∨
          setting.name ∉ settings.map Setting.name ∧ Has {} setting)) ∧
    (∀ (text : String) members before cs rest,
      text.toList = before ++ '\x7b' :: (cs ++ rest) → Blank before →
      MembersSpelledBy members cs → Ends rest → Unfit members →
      ∃ fault, ofText text = .error (.configFault fault)) ∧
    (∀ text config, ofText text = .ok config → config.maxCacheEntries ≠ 0) ∧
    (∀ config builder, Builder.ofConfig config = .ok builder →
      builder.config = config ∧ config.maxCacheEntries ≠ 0) ∧
    ∀ config : Config, config.maxCacheEntries ≠ 0 → ofText config.toJson.text = .ok config := by
  refine ⟨fun text members settings htext hgiven hnames => ?_,
    fun text members before cs rest htext hbefore hmembers hrest hunfit => ?_,
    fun text config h => ?_, fun config builder h => ?_, fun config h => ?_⟩
  · have hvalid := isValid_config_iff hnames
    rw [ofText_of_given htext hgiven hnames]
    refine ⟨fun hzero => validate_eq_error_iff.mpr ⟨fun h => hvalid.mp h hzero, rfl⟩,
      fun hzero => ⟨_, validate_eq_ok_iff.mpr ⟨hvalid.mpr hzero, rfl⟩, has_config_iff hnames⟩⟩
  · exact ofText_of_unfit htext hbefore hmembers hrest hunfit
  · exact isValid_iff.mp (ofText_eq_ok h)
  · obtain ⟨checked, hchecked, rfl⟩ := map_eq_ok_iff.mp h
    obtain ⟨hvalid, rfl⟩ := validate_eq_ok_iff.mp hchecked
    exact ⟨rfl, isValid_iff.mp hvalid⟩
  · rw [ofText_toJson_text]
    exact validate_eq_ok_iff.mpr ⟨isValid_iff.mpr h, rfl⟩

/-- Two settings out of order and with a blank, a bound of zero, and a text that breaks off behind
    a value of the wrong type. -/
theorem ofText_loads_pieces :
    (∃ config, ofText "\x7b\"max_cache_entries\": 7,\"case_sensitive\":false\x7d" = .ok config ∧
      config.Has (.maxCacheEntries 7) ∧ config.Has (.caseSensitive false) ∧
      config.Has (.shareCommonSubexpressions true)) ∧
    ofText "\x7b\"max_cache_entries\":0\x7d" = .error .zeroCacheBound ∧
    (∃ fault, ofText "\x7b\"case_sensitive\":1,\"bo" = .error (.configFault fault)) := by
  obtain ⟨hgiven, hunfit, -⟩ := ofText_loads
  have hnatural (n : Nat) : (Json.Reading.number (numeral n)).IsNatural n :=
    ⟨_, rfl, by simp [numeral], rfl, rfl, digitsValue_toDigits n⟩
  have hspelled (n : Int) : (Json.Reading.number (numeral n)).SpelledBy (toString n).toList :=
    .number (numeral_spelledBy n)
  have hkey (setting : Setting) : Piece.text? (pieces setting.name) = some setting.name :=
    text?_pieces setting.name
  have hblank : Blank [' '] := fun c hc => Or.inl (List.mem_singleton.mp hc)
  refine ⟨?_, ?_, ?_⟩
  · have hbound := MemberSpelledBy.pair blank_nil (pieces_spelledBy "max_cache_entries")
      blank_nil (.padded hblank (hspelled 7) blank_nil)
    have hobject := Json.Reading.SpelledBy.object
      (.more hbound (.last (member_spelledBy "case_sensitive" .false)))
    have hsettings : List.Forall₂ Setting.GivenBy [.maxCacheEntries 7, .caseSensitive false]
        [(some (pieces "max_cache_entries"), .number (numeral 7)),
          (some (pieces "case_sensitive"), .bool false)] :=
      .cons ⟨hkey (.maxCacheEntries 7), hnatural 7⟩
        (.cons ⟨hkey (.caseSensitive false), rfl⟩ .nil)
    obtain ⟨-, hload⟩ := hgiven "\x7b\"max_cache_entries\": 7,\"case_sensitive\":false\x7d" _ _
      hobject.padded hsettings (by decide)
    obtain ⟨config, hconfig, hhas⟩ := hload (by decide)
    refine ⟨config, hconfig, (hhas _).mpr (Or.inl (by decide)),
      (hhas _).mpr (Or.inl (by decide)), (hhas _).mpr (Or.inr ⟨by decide, rfl⟩)⟩
  · have hobject := Json.Reading.SpelledBy.object
      (.last (member_spelledBy "max_cache_entries" (hspelled 0)))
    have hsettings : List.Forall₂ Setting.GivenBy [.maxCacheEntries 0]
        [(some (pieces "max_cache_entries"), .number (numeral 0))] :=
      .cons ⟨hkey (.maxCacheEntries 0), hnatural 0⟩ .nil
    exact (hgiven "\x7b\"max_cache_entries\":0\x7d" _ _ hobject.padded hsettings
      (by decide)).1 (by decide)
  · refine hunfit "\x7b\"case_sensitive\":1,\"bo" _ [] _ ",\"bo".toList ?_ blank_nil
      (.last (member_spelledBy "case_sensitive" (hspelled 1))) (ends_comma _) ?_
    · rfl
    · refine Or.inl ⟨_, List.mem_cons_self, ?_⟩
      rintro setting ⟨hname, hvalue⟩
      have hcase := Option.some_inj.mp ((text?_pieces "case_sensitive").symm.trans hname)
      cases setting with
      | caseSensitive _ => cases hvalue
      | shareCommonSubexpressions _ | maxCacheEntries _ => simp [Setting.name] at hcase

end Config
end RowExpr
