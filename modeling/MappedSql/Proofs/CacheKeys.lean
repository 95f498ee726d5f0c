import Mathlib.Algebra.Group.Nat.Defs
import MappedSql.Executor.Worker
import MappedSql.Proofs.EqualKeys
import MappedSql.Proofs.Outcomes
import MappedSql.Value.Storage

/-!
# What a cache key determines

Two executions with one cache key send the same SQL and keep the same rows. Whether they also
bind the same values depends on the type handlers, because a key is made of values before they
are converted: they do exactly when the JSON handler puts single values into JSON notation at
the same markers of both. A list and its own JSON text, or a missing value and the null value,
have one key component and are bound differently by that handler, so that one of two such
executions is served the result of the other.

All handlers that are always there bind a value as it is, or as JSON. Of those that a caller
registers nothing is known but what `Comparable` asks for.
-/

namespace MappedSql

-- ---------------------------------------------------------------------------
-- Keys and their components
-- ---------------------------------------------------------------------------

@[simp] theorem CacheKey.components_ofComponents (cs : List KeyComponent) :
    (ofComponents cs).components = cs := by
  rw [ofComponents_eq_ofHashed, components_ofHashed]

theorem CacheKey.ofComponents_eq {cs ds : List KeyComponent}
    (h : ofComponents cs = ofComponents ds) : cs = ds := by
  simpa using congrArg components h

theorem cacheKey_parts {c : Configuration} {s : Statement} {m n : RowBounds}
    {x y : BoundStatement} {k : CacheKey} (hx : Worker.cacheKey c s m x = .ok k)
    (hy : Worker.cacheKey c s n y = .ok k) :
    KeyComponent.ofNat m.offset = .ofNat n.offset ∧ KeyComponent.ofNat m.limit = .ofNat n.limit ∧
      x.sql = y.sql ∧ ∃ cs, Worker.parameterComponents c.handlers x = .ok cs ∧
        Worker.parameterComponents c.handlers y = .ok cs := by
  simp only [Worker.cacheKey, bind_ok, pure_ok] at hx hy
  obtain ⟨cs, hcs, rfl⟩ := hx
  obtain ⟨ds, hds, he⟩ := hy
  have hl := CacheKey.ofComponents_eq he
  simp only [List.cons_append, List.nil_append, List.cons.injEq, KeyComponent.text.injEq,
    true_and, List.append_cancel_right_eq] at hl
  obtain ⟨ho, hm, hs, rfl⟩ := hl
  exact ⟨ho.symm, hm.symm, hs.symm, ds, hcs, hds⟩

-- ---------------------------------------------------------------------------
-- Row bounds
-- ---------------------------------------------------------------------------

theorem ofNat_eq {m n : Nat} (h : KeyComponent.ofNat m = .ofNat n) :
    m = n ∨ 2 ^ 63 - 1 ≤ m ∧ 2 ^ 63 - 1 ≤ n := by
  simp only [KeyComponent.ofNat, KeyComponent.int.injEq, Nat.pow_eq] at h
  have ht := congrArg Int64.toInt h
  rw [Int64.toInt_ofNat_of_lt (by omega), Int64.toInt_ofNat_of_lt (by omega)] at ht
  omega

/-- Bounds are cut off at the largest signed number, which no result of fewer rows reaches. -/
theorem select_eq {α : Type} {m n : RowBounds} {items : List α}
    (ho : KeyComponent.ofNat m.offset = .ofNat n.offset)
    (hl : KeyComponent.ofNat m.limit = .ofNat n.limit) (hi : items.length < 2 ^ 63) :
    m.select items = n.select items := by
  have hdrop : items.drop m.offset = items.drop n.offset := by
    rcases ofNat_eq ho with he | ⟨hm, hn⟩
    · rw [he]
    · rw [List.drop_eq_nil_of_le (by omega), List.drop_eq_nil_of_le (by omega)]
  have hlen : (items.drop n.offset).length < 2 ^ 63 := by
    rw [List.length_drop]; omega
  simp only [RowBounds.select, hdrop]
  rcases ofNat_eq hl with he | ⟨hm, hn⟩
  · rw [he]
  · rw [List.take_of_length_le (by omega), List.take_of_length_le (by omega)]

theorem rows_paginate {r : ResultSet} {b : RowBounds} (h : r.rows.length < 2 ^ 63) :
    (r.paginate b).rows = b.select r.rows := by
  unfold ResultSet.paginate
  split
  · rename_i hb
    subst hb
    simp only [RowBounds.select, RowBounds.unbounded, RowBounds.noLimit, Nat.pow_eq,
      List.drop_zero]
    rw [List.take_of_length_le (by omega)]
  · rfl

-- ---------------------------------------------------------------------------
-- Type handlers
-- ---------------------------------------------------------------------------

/-- A key component as the driver stores it when nothing converts it. -/
def KeyComponent.stored : KeyComponent → Stored
  | .null => .null
  | .int n => .integer n
  | .double d => .real d
  | .boolean b => .integer (if b then 1 else 0)
  | .text s => .text s
  | .blob bytes => .blob bytes

/-- Single values that are no JSON already. In JSON notation they are written in another way
than as values. -/
def Argument.isRespelled : Argument → Bool
  | .value (.json _) => false
  | .value _ => true
  | _ => false

namespace TypeHandler

/-- Whatever the handler binds is stored as the key component of the argument is. -/
def BindsAsIs (h : TypeHandler) : Prop :=
  ∀ a t v, h.toDriver a t = .ok v → v.stored = (KeyComponent.ofArgument a).stored

def BindsJson (h : TypeHandler) : Prop :=
  h.toDriver = jsonText.toDriver

/-- How a value is stored depends on nothing but the key component of the argument. -/
def BindsByComponent (h : TypeHandler) : Prop :=
  ∃ f : KeyComponent → Stored, ∀ a t v, h.toDriver a t = .ok v →
    v.stored = f (KeyComponent.ofArgument a)

def IsKnown (h : TypeHandler) : Prop :=
  h.BindsAsIs ∨ h.BindsJson

theorem passThrough_stored {a : Argument} {t : Option DriverType} {v : Value}
    (h : passThrough a t = .ok v) : v.stored = (KeyComponent.ofArgument a).stored := by
  cases a with
  | null => cases h; rfl
  | value w => cases h; cases v <;> rfl
  | _ => simp [passThrough] at h

theorem default_bindsAsIs : BindsAsIs default :=
  fun _ _ _ h => passThrough_stored h

theorem booleanAsInt_bindsAsIs : BindsAsIs booleanAsInt := by
  intro a t v h
  simp only [booleanAsInt] at h
  split at h
  · cases h; rfl
  · exact passThrough_stored h

theorem timestampText_bindsAsIs : BindsAsIs timestampText := by
  intro a t v h
  simp only [timestampText] at h
  split at h
  · cases h; rfl
  · exact passThrough_stored h

theorem standard_byName : HandlerRegistry.standard.byName =
    [("default", default), ("json", jsonText), ("boolInt", booleanAsInt),
      ("timestampText", timestampText)] := by
  simp only [HandlerRegistry.standard, List.foldl, HandlerRegistry.register]
  rfl

theorem standard_binds {name : String} {h : TypeHandler}
    (hr : HandlerRegistry.standard.resolve name = .ok h) : h.IsKnown := by
  simp only [HandlerRegistry.resolve, Keyed.get?, standard_byName] at hr
  split at hr
  · rename_i g hg
    cases hr
    obtain ⟨entry, hf, rfl⟩ := Option.map_eq_some_iff.mp hg
    have hm := List.mem_of_find?_eq_some hf
    simp only [List.mem_cons, List.not_mem_nil, or_false] at hm
    obtain rfl | rfl | rfl | rfl := hm
    · exact .inl default_bindsAsIs
    · exact .inr rfl
    · exact .inl booleanAsInt_bindsAsIs
    · exact .inl timestampText_bindsAsIs
  · cases hr

theorem jsonText_stored {a : Argument} {t : Option DriverType} {v : Value}
    (h : jsonText.toDriver a t = .ok v) :
    v.stored =
      if a.isRespelled then .text a.toJson.text else (KeyComponent.ofArgument a).stored := by
  simp only [jsonText] at h
  cases a with
  | null => cases h; rfl
  | value w => cases h; cases w <;> rfl
  | _ => cases h; rfl

theorem BindsAsIs.byComponent {h : TypeHandler} (ha : h.BindsAsIs) : h.BindsByComponent :=
  ⟨KeyComponent.stored, ha⟩

/-- A list and its JSON text have one key component. -/
theorem BindsJson.not_byComponent {h : TypeHandler} (hj : h.BindsJson) :
    ¬ h.BindsByComponent := by
  rintro ⟨f, hf⟩
  unfold BindsJson at hj
  have hlist := hf (.list []) none (.text "[]") (by rw [hj]; rfl)
  have htext := hf (.ofText "[]") none (.text "\"[]\"") (by rw [hj]; rfl)
  have hsame : KeyComponent.ofArgument (.list []) = .ofArgument (.ofText "[]") := rfl
  rw [hsame] at hlist
  exact absurd (hlist.trans htext.symm) (by decide)

end TypeHandler

theorem length_escape_pos (c : Char) : 1 ≤ (Json.escape c).length := by
  unfold Json.escape
  split <;> try simp
  split <;> simp

theorem length_le_flatMap_escape (cs : List Char) :
    cs.length ≤ (cs.flatMap Json.escape).length := by
  induction cs with
  | nil => simp
  | cons c cs ih =>
    have := length_escape_pos c
    simp only [List.flatMap_cons, List.length_append, List.length_cons]
    omega

theorem quote_ne (s : String) : Json.quote s ≠ s := by
  intro h
  have hlen := congrArg (fun t => t.toList.length) h
  have := length_le_flatMap_escape s.toList
  simp only [Json.quote, String.toList_ofList, List.length_append, List.length_cons,
    List.length_nil] at hlen
  omega

theorem respelled_ne {a : Argument} (h : a.isRespelled) :
    Stored.text a.toJson.text ≠ (KeyComponent.ofArgument a).stored := by
  cases a with
  | value v =>
    cases v with
    | text s => simpa [Argument.toJson, Value.toJson, Json.text, KeyComponent.ofArgument,
        KeyComponent.ofValue, KeyComponent.stored] using quote_ne s
    | timestamp t => simpa [Argument.toJson, Value.toJson, Json.text, KeyComponent.ofArgument,
        KeyComponent.ofValue, KeyComponent.stored] using quote_ne t.text
    | json j => simp [Argument.isRespelled] at h
    | _ => simp [KeyComponent.ofArgument, KeyComponent.ofValue, KeyComponent.stored]
  | _ => simp [Argument.isRespelled] at h

theorem toJson_eq_of_respelled {a b : Argument} (ha : a.isRespelled) (hb : b.isRespelled)
    (h : KeyComponent.ofArgument a = .ofArgument b) : a.toJson = b.toJson := by
  cases a with
  | value v =>
    cases b with
    | value w =>
      cases v <;> cases w <;>
        simp_all [Argument.isRespelled, Argument.toJson, Value.toJson, KeyComponent.ofArgument,
          KeyComponent.ofValue]
    | _ => simp [Argument.isRespelled] at hb
  | _ => simp [Argument.isRespelled] at ha

-- ---------------------------------------------------------------------------
-- Markers
-- ---------------------------------------------------------------------------

def Parameter.toHandler (p : Parameter) : TypeHandler := p.handler.getD .default

namespace BoundStatement

/-- At the marker of a parameter the JSON handler meets a single value that is no JSON. -/
def Respells (s : BoundStatement) (handlers : HandlerRegistry) (p : Parameter) : Prop :=
  p.toHandler.BindsJson ∧ ∃ a, s.valueOf handlers p = .ok a ∧ a.isRespelled

variable {s : BoundStatement} {handlers : HandlerRegistry} {p : Parameter}

theorem convert_ok {a : Argument} {v : Value} :
    convert p a = .ok v ↔ p.toHandler.toDriver a p.driverType = .ok v := by
  unfold convert Parameter.toHandler
  dsimp only
  split <;> simp_all

theorem bind_ok_of_read {v : Value} (hm : p.mode ≠ .output) (hv : s.bind handlers p = .ok v) :
    ∃ a, s.valueOf handlers p = .ok a ∧ p.toHandler.toDriver a p.driverType = .ok v := by
  simpa only [BoundStatement.bind, hm, if_false, bind_ok, convert_ok] using hv

theorem stored_of_bind {v : Value} (hm : p.mode ≠ .output)
    (hh : p.toHandler.IsKnown) (hv : s.bind handlers p = .ok v) :
    ∃ a, s.valueOf handlers p = .ok a ∧
      (¬ s.Respells handlers p → v.stored = (KeyComponent.ofArgument a).stored) ∧
      (s.Respells handlers p → a.isRespelled ∧ v.stored = .text a.toJson.text) := by
  obtain ⟨a, ha, hc⟩ := bind_ok_of_read hm hv
  refine ⟨a, ha, fun hn => ?_, ?_⟩
  · rcases hh with hplain | hjson
    · exact hplain a _ v hc
    · have hr : ¬ a.isRespelled := fun hr => hn ⟨hjson, a, ha, hr⟩
      rw [hjson] at hc
      simpa [hr] using TypeHandler.jsonText_stored hc
  · rintro ⟨hjson, b, hb, hr⟩
    cases ha.symm.trans hb
    rw [hjson] at hc
    exact ⟨hr, by simpa [hr] using TypeHandler.jsonText_stored hc⟩

end BoundStatement

theorem parameterComponents_ok {handlers : HandlerRegistry} {s : BoundStatement}
    {cs : List KeyComponent} (hm : ∀ p ∈ s.parameters, p.mode ≠ .output)
    (h : Worker.parameterComponents handlers s = .ok cs) :
    List.Forall₂ (fun p c => ∃ a, s.valueOf handlers p = .ok a ∧ KeyComponent.ofArgument a = c)
      s.parameters cs := by
  have hf : s.parameters.filter (·.mode != .output) = s.parameters := by
    simpa [List.filter_eq_self] using hm
  simp only [Worker.parameterComponents, hf, bind_ok, pure_ok, mapM_ok] at h
  obtain ⟨as, has, rfl⟩ := h
  rw [List.forall₂_map_right_iff]
  exact has.imp fun p a ha => ⟨a, ha, rfl⟩

/-- Handlers of two executions whose values can be compared at a marker: they are known, or are
one handler that goes by the key component. -/
def TypeHandler.Comparable (g h : TypeHandler) : Prop :=
  g.IsKnown ∧ h.IsKnown ∨ g = h ∧ g.BindsByComponent

section
variable {handlers : HandlerRegistry} {x y : BoundStatement}

/-- At one marker: arguments of one key component are stored alike exactly when the JSON
handler respells both or none of them. -/
theorem stored_eq_iff {p q : Parameter} {a b : Argument} {v w : Value}
    (hp : p.mode ≠ .output) (hq : q.mode ≠ .output) (h : p.toHandler.Comparable q.toHandler)
    (ha : x.valueOf handlers p = .ok a) (hb : y.valueOf handlers q = .ok b)
    (hc : KeyComponent.ofArgument a = .ofArgument b)
    (hv : x.bind handlers p = .ok v) (hw : y.bind handlers q = .ok w) :
    v.stored = w.stored ↔ (x.Respells handlers p ↔ y.Respells handlers q) := by
  rcases h with ⟨hkp, hkq⟩ | ⟨he, f, hf⟩
  · obtain ⟨a', ha', hv0, hv1⟩ := BoundStatement.stored_of_bind hp hkp hv
    obtain ⟨b', hb', hw0, hw1⟩ := BoundStatement.stored_of_bind hq hkq hw
    cases ha.symm.trans ha'
    cases hb.symm.trans hb'
    by_cases hx : x.Respells handlers p <;> by_cases hy : y.Respells handlers q
    · obtain ⟨hra, hva⟩ := hv1 hx
      obtain ⟨hrb, hwb⟩ := hw1 hy
      simp [hx, hy, hva, hwb, toJson_eq_of_respelled hra hrb hc]
    · obtain ⟨hra, hva⟩ := hv1 hx
      simpa [hx, hy, hva, hw0 hy, ← hc] using respelled_ne hra
    · obtain ⟨hrb, hwb⟩ := hw1 hy
      simpa [hx, hy, hwb, hv0 hx, hc, eq_comm] using respelled_ne hrb
    · simp [hx, hy, hv0 hx, hw0 hy, hc]
  · have hx : ¬ x.Respells handlers p := fun hr => hr.1.not_byComponent ⟨f, hf⟩
    have hy : ¬ y.Respells handlers q := fun hr => (he ▸ hr.1).not_byComponent ⟨f, hf⟩
    obtain ⟨a', ha', hva⟩ := BoundStatement.bind_ok_of_read hp hv
    obtain ⟨b', hb', hwb⟩ := BoundStatement.bind_ok_of_read hq hw
    cases ha.symm.trans ha'
    cases hb.symm.trans hb'
    simp [hx, hy, hf _ _ _ hva, hf _ _ _ (he ▸ hwb), hc]

theorem stored_values_eq_iff {ps qs : List Parameter} {cs : List KeyComponent}
    {vs ws : List Value}
    (hps : List.Forall₂
      (fun p c => ∃ a, x.valueOf handlers p = .ok a ∧ KeyComponent.ofArgument a = c) ps cs)
    (hqs : List.Forall₂
      (fun q c => ∃ b, y.valueOf handlers q = .ok b ∧ KeyComponent.ofArgument b = c) qs cs)
    (hvs : List.Forall₂ (fun p v => x.bind handlers p = .ok v) ps vs)
    (hws : List.Forall₂ (fun q w => y.bind handlers q = .ok w) qs ws)
    (hmp : ∀ p ∈ ps, p.mode ≠ .output) (hmq : ∀ q ∈ qs, q.mode ≠ .output)
    (h : ∀ m ∈ ps.zip qs, m.1.toHandler.Comparable m.2.toHandler) :
    vs.map Value.stored = ws.map Value.stored ↔
      List.Forall₂ (fun p q => x.Respells handlers p ↔ y.Respells handlers q) ps qs := by
  induction hps generalizing qs vs ws with
  | nil =>
    cases hqs
    cases hvs
    cases hws
    simp
  | cons hp _ ih =>
    cases hqs with
    | cons hq hqs =>
      cases hvs with
      | cons hv hvs =>
        cases hws with
        | cons hw hws =>
          obtain ⟨a, ha, hac⟩ := hp
          obtain ⟨b, hb, hbc⟩ := hq
          rw [List.forall_mem_cons] at hmp hmq
          rw [List.zip_cons_cons, List.forall_mem_cons] at h
          have hone := stored_eq_iff hmp.1 hmq.1 h.1 ha hb (hac.trans hbc.symm) hv hw
          simp only [List.map_cons, List.cons.injEq, List.forall₂_cons, hone,
            ih hqs hvs hws hmp.2 hmq.2 h.2]

/-- Two executions with equal keys send the same SQL, keep the same rows of any result, and
bind values that are stored alike exactly when the JSON handler respells at the same
markers of both. -/
theorem equal_keys_bind_alike_iff {c : Configuration} {s : Statement} {m n : RowBounds}
    {k : CacheKey} {vs ws : List Value} (hx : Worker.cacheKey c s m x = .ok k)
    (hy : Worker.cacheKey c s n y = .ok k) (hvs : x.values c.handlers = .ok vs)
    (hws : y.values c.handlers = .ok ws) (hmx : ∀ p ∈ x.parameters, p.mode ≠ .output)
    (hmy : ∀ p ∈ y.parameters, p.mode ≠ .output)
    (hh : ∀ m ∈ x.parameters.zip y.parameters, m.1.toHandler.Comparable m.2.toHandler) :
    x.sql = y.sql ∧
      (∀ r : ResultSet, r.rows.length < 2 ^ 63 → (r.paginate m).rows = (r.paginate n).rows) ∧
      (vs.map Value.stored = ws.map Value.stored ↔
        List.Forall₂ (fun p q => x.Respells c.handlers p ↔ y.Respells c.handlers q)
          x.parameters y.parameters) := by
  obtain ⟨ho, hl, hs, cs, hcx, hcy⟩ := cacheKey_parts hx hy
  refine ⟨hs, fun r hr => ?_, ?_⟩
  · rw [rows_paginate hr, rows_paginate hr, select_eq ho hl hr]
  · exact stored_values_eq_iff (parameterComponents_ok hmx hcx) (parameterComponents_ok hmy hcy)
      (mapM_ok.mp hvs) (mapM_ok.mp hws) hmx hmy hh

end

def findBoth.listed : Parameter where
  property := some "w"
  type := .object
  handler := some .jsonText

def findBoth : Statement where
  id := "find"
  template := .compiled
    { sql := "select x from t where v = ? and w = ?"
      parameters := [{ property := some "v", type := .object }, findBoth.listed] }
  command := .select

def findBoth.boundTo (v w : Argument) : BoundStatement where
  sql := "select x from t where v = ? and w = ?"
  parameters := [{ property := some "v", type := .object }, findBoth.listed]
  argument := .map [("v", v), ("w", w)]

def findBoth.key (limit : Nat) : CacheKey :=
  .ofComponents [.text "find", .ofNat 0, .ofNat limit,
    .text "select x from t where v = ? and w = ?", .text "[]", .text "[7]"]

/-- A JSON value and its text are bound alike as they are, and a list in both as JSON. The
limits differ, but only above what a key tells apart. -/
theorem find_json_or_text_binds_alike :
    let x := findBoth.boundTo (.value (.json (.array []))) (.list [.ofInt 7])
    let y := findBoth.boundTo (.ofText "[]") (.list [.ofInt 7])
    Worker.cacheKey {} findBoth .unbounded x = .ok (findBoth.key (2 ^ 63)) ∧
      Worker.cacheKey {} findBoth ⟨0, 2 ^ 63⟩ y = .ok (findBoth.key (2 ^ 63)) ∧
      x.values .standard = .ok [.json (.array []), .text "[7]"] ∧
      y.values .standard = .ok [.text "[]", .text "[7]"] ∧
      x.sql = y.sql ∧
      (∀ r : ResultSet, r.rows.length < 2 ^ 63 →
        (r.paginate .unbounded).rows = (r.paginate ⟨0, 2 ^ 63⟩).rows) ∧
      List.map Value.stored [.json (.array []), .text "[7]"] =
        List.map Value.stored [.text "[]", .text "[7]"] := by
  intro x y
  have hx : Worker.cacheKey {} findBoth .unbounded x = .ok (findBoth.key (2 ^ 63)) := by
    with_unfolding_all rfl
  have hy : Worker.cacheKey {} findBoth ⟨0, 2 ^ 63⟩ y = .ok (findBoth.key (2 ^ 63)) := by
    with_unfolding_all rfl
  have hvs : x.values .standard = .ok [.json (.array []), .text "[7]"] := by
    with_unfolding_all rfl
  have hws : y.values .standard = .ok [.text "[]", .text "[7]"] := by
    with_unfolding_all rfl
  have hplain : HandlerRegistry.standard.resolve "default" = .ok .default := rfl
  have hjson : HandlerRegistry.standard.resolve "json" = .ok .jsonText := rfl
  have hknown : ∀ m ∈ x.parameters.zip y.parameters,
      m.1.toHandler.Comparable m.2.toHandler := by
    intro m hm
    simp only [x, y, findBoth.boundTo, List.zip_cons_cons, List.zip_nil_right, List.mem_cons,
      List.not_mem_nil, or_false] at hm
    rcases hm with rfl | rfl
    · exact .inl ⟨TypeHandler.standard_binds hplain, TypeHandler.standard_binds hplain⟩
    · exact .inl ⟨TypeHandler.standard_binds hjson, TypeHandler.standard_binds hjson⟩
  obtain ⟨hsql, hrows, hiff⟩ := equal_keys_bind_alike_iff hx hy hvs hws
    (by simp [x, findBoth.boundTo, findBoth.listed])
    (by simp [y, findBoth.boundTo, findBoth.listed])
    hknown
  refine ⟨hx, hy, hvs, hws, hsql, hrows, hiff.mpr ?_⟩
  -- no marker respells: the first handler is not the JSON one, the second reads a list
  have hfirst : ∀ z : BoundStatement,
      ¬ z.Respells .standard { property := some "v", type := .object } :=
    fun z hz => hz.1.not_byComponent TypeHandler.default_bindsAsIs.byComponent
  have hsecond : ∀ z : BoundStatement,
      z.valueOf .standard findBoth.listed = .ok (.list [.ofInt 7]) →
      ¬ z.Respells .standard findBoth.listed := by
    rintro z hz ⟨-, a, ha, hr⟩
    cases hz.symm.trans ha
    cases hr
  have hlx := hsecond x (by with_unfolding_all rfl)
  have hly := hsecond y (by with_unfolding_all rfl)
  exact .cons (iff_of_false (hfirst x) (hfirst y)) (.cons (iff_of_false hlx hly) .nil)

/-- A list and its own JSON text have one key, and are bound differently as JSON. -/
theorem find_list_or_text_binds_differently :
    let x := findBoth.boundTo (.ofText "[]") (.list [.ofInt 7])
    let y := findBoth.boundTo (.ofText "[]") (.ofText "[7]")
    findBoth.bound (.map [("v", .ofText "[]"), ("w", .list [.ofInt 7])]) = .ok x ∧
      findBoth.bound (.map [("v", .ofText "[]"), ("w", .ofText "[7]")]) = .ok y ∧
      Worker.cacheKey {} findBoth .unbounded x = .ok (findBoth.key (2 ^ 63)) ∧
      Worker.cacheKey {} findBoth .unbounded y = .ok (findBoth.key (2 ^ 63)) ∧
      x.values .standard = .ok [.text "[]", .text "[7]"] ∧
      y.values .standard = .ok [.text "[]", .text "\"[7]\""] ∧
      List.map Value.stored [.text "[]", .text "[7]"] ≠
        List.map Value.stored [.text "[]", .text "\"[7]\""] := by
  refine ⟨?_, ?_, ?_, ?_, ?_, ?_, by decide⟩ <;> with_unfolding_all rfl

end MappedSql
