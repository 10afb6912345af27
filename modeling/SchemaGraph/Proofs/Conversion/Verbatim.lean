import SchemaGraph.Proofs.Conversion.Objects
import SchemaGraph.Proofs.Doubles
import SchemaGraph.Proofs.Merging
import SchemaGraph.Proofs.Shows

set_option autoImplicit false

/-! # Payloads that are taken over

Some nodes look at no part of a payload: one that accepts anything, one that refuses what others
accept, and an object for the keys it knows nothing of. They hand the payload over as it is. What
it renders as afterwards is the payload itself, but for integers beyond the signed words: values
have no such integers, and the double next to one comes in its place (`Json.taken`).
-/

namespace SchemaGraph

/-- What a number comes back as after it was taken over. -/
def Number.taken : Number → Number
  | integer n fits => if FitsSigned n then integer n fits else double (Double.ofInt n)
  | double d => double d

namespace Json

mutual

/-- What a payload comes back as after it was taken over. -/
def taken : Json → Json
  | .num n => .num n.taken
  | .arr items => .arr (takenItems items)
  | .obj entries => .obj (takenEntries entries)
  | leaf => leaf

def takenItems : List Json → List Json
  | [] => []
  | item :: rest => item.taken :: takenItems rest

def takenEntries : List (String × Json) → List (String × Json)
  | [] => []
  | (key, item) :: rest => (key, item.taken) :: takenEntries rest

end

/-! ## What comes back -/

theorem length_takenItems (items : List Json) : (takenItems items).length = items.length := by
  induction items with
  | nil => rfl
  | cons item rest ih => exact congrArg (· + 1) ih

theorem keys_takenEntries (entries : List (String × Json)) :
    (takenEntries entries).map Prod.fst = entries.map Prod.fst := by
  induction entries with
  | nil => rfl
  | cons entry rest ih => exact congrArg (entry.1 :: ·) ih

mutual

/-- What holds of every place after it was taken over holds of the whole. -/
theorem all_taken {test test' : Json → Bool}
    (htest : ∀ value, test value = true → test' value.taken = true) :
    ∀ {value : Json}, value.all test = true → value.taken.all test' = true
  | .arr items, h => by
      obtain ⟨hhere, hitems⟩ := Bool.and_eq_true_iff.1 h
      exact Bool.and_eq_true_iff.2 ⟨htest (.arr items) hhere, all_takenItems htest hitems⟩
  | .obj entries, h => by
      obtain ⟨hhere, hentries⟩ := Bool.and_eq_true_iff.1 h
      exact Bool.and_eq_true_iff.2 ⟨htest (.obj entries) hhere, all_takenEntries htest hentries⟩
  | .null, h => htest .null h
  | .bool b, h => htest (.bool b) h
  | .num n, h => htest (.num n) h
  | .str s, h => htest (.str s) h

theorem all_takenItems {test test' : Json → Bool}
    (htest : ∀ value, test value = true → test' value.taken = true) :
    ∀ {items : List Json}, allItems test items = true → allItems test' (takenItems items) = true
  | [], _ => rfl
  | item :: rest, h => by
      obtain ⟨hitem, hrest⟩ := Bool.and_eq_true_iff.1 h
      exact Bool.and_eq_true_iff.2 ⟨all_taken htest hitem, all_takenItems htest hrest⟩

theorem all_takenEntries {test test' : Json → Bool}
    (htest : ∀ value, test value = true → test' value.taken = true) :
    ∀ {entries : List (String × Json)}, allEntries test entries = true →
      allEntries test' (takenEntries entries) = true
  | [], _ => rfl
  | (key, item) :: rest, h => by
      obtain ⟨hitem, hrest⟩ := Bool.and_eq_true_iff.1 h
      exact Bool.and_eq_true_iff.2 ⟨all_taken htest hitem, all_takenEntries htest hrest⟩

end

theorem isRegularHere_taken {value : Json} (h : value.isRegularHere = true) :
    value.taken.isRegularHere = true := by
  cases value with
  | num n =>
      cases n with
      | integer n fits =>
          show (Json.num (if FitsSigned n then _ else _)).isRegularHere = true
          split
          · rfl
          · exact Double.isFinite_ofInt fits
      | double d => exact h
  | arr items =>
      have hlength : decide (items.length < 0x10000000000000000) = true := h
      show decide ((takenItems items).length < 0x10000000000000000) = true
      rwa [length_takenItems]
  | obj entries =>
      have hkeys : decide ((entries.map Prod.fst).Pairwise (· < ·)) = true := h
      show decide (((takenEntries entries).map Prod.fst).Pairwise (· < ·)) = true
      rwa [keys_takenEntries]
  | _ => rfl

theorem fitsHere_taken (value : Json) : value.taken.fitsHere = true := by
  cases value with
  | num n =>
      cases n with
      | integer n fits =>
          show (Json.num (if FitsSigned n then _ else _)).fitsHere = true
          split
          · exact decide_eq_true ‹_›
          · rfl
      | double d => rfl
  | _ => rfl

/-- What comes back has only integers of signed words. -/
theorem isPlain_taken {payload : Json} (h : payload.isRegular = true) : payload.taken.IsPlain where
  regular := all_taken (fun _ => isRegularHere_taken) h
  fits := all_taken (fun value _ => fitsHere_taken value) h

mutual

theorem taken_eq_self : ∀ {payload : Json}, payload.all fitsHere = true → payload.taken = payload
  | .arr items, h => by
      have hitems : allItems fitsHere items = true := h
      exact congrArg arr (takenItems_eq_self hitems)
  | .obj entries, h => by
      have hentries : allEntries fitsHere entries = true := h
      exact congrArg obj (takenEntries_eq_self hentries)
  | .num (.integer n fits), h => by
      have hfits : FitsSigned n := of_decide_eq_true h
      show Json.num (if FitsSigned n then _ else _) = _
      rw [if_pos hfits]
  | .num (.double d), _ => rfl
  | .null, _ => rfl
  | .bool b, _ => rfl
  | .str s, _ => rfl

theorem takenItems_eq_self : ∀ {items : List Json}, allItems fitsHere items = true →
    takenItems items = items
  | [], _ => rfl
  | item :: rest, h => by
      obtain ⟨hitem, hrest⟩ := Bool.and_eq_true_iff.1 h
      rw [takenItems, taken_eq_self hitem, takenItems_eq_self hrest]

theorem takenEntries_eq_self : ∀ {entries : List (String × Json)},
    allEntries fitsHere entries = true → takenEntries entries = entries
  | [], _ => rfl
  | (key, item) :: rest, h => by
      obtain ⟨hitem, hrest⟩ := Bool.and_eq_true_iff.1 h
      rw [takenEntries, taken_eq_self hitem, takenEntries_eq_self hrest]

end

/-- A payload comes back as it is exactly if its integers are those of signed words. -/
theorem taken_eq_self_iff {payload : Json} (h : payload.isRegular = true) :
    payload.taken = payload ↔ payload.all fitsHere = true :=
  ⟨fun heq => heq ▸ (isPlain_taken h).fits, taken_eq_self⟩

end Json

namespace Value

theorem ofNumber_taken (n : Number) : ofNumber n.taken = ofNumber n := by
  cases n with
  | integer n fits =>
      unfold Number.taken
      dsimp only
      split
      · rfl
      · rename_i hlong
        unfold ofNumber
        dsimp only
        rw [dif_neg hlong]
  | double d => rfl

mutual

/-- Taking over what came back makes no difference. -/
theorem ofJson_taken : ∀ payload : Json, ofJson payload.taken = ofJson payload
  | .num n => ofNumber_taken n
  | .arr items => congrArg array (ofItems_taken items)
  | .obj entries => congrArg map (ofEntries_taken entries)
  | .null => rfl
  | .bool _ => rfl
  | .str _ => rfl

theorem ofItems_taken : ∀ items : List Json, ofItems (Json.takenItems items) = ofItems items
  | [] => rfl
  | item :: rest => by
      rw [Json.takenItems, ofItems, ofItems, ofJson_taken item, ofItems_taken rest]

theorem ofEntries_taken : ∀ entries : List (String × Json),
    ofEntries (Json.takenEntries entries) = ofEntries entries
  | [] => rfl
  | (key, item) :: rest => by
      rw [Json.takenEntries, ofEntries, ofEntries, ofJson_taken item, ofEntries_taken rest]

end

theorem toJson_ofJson {payload : Json} (h : payload.isRegular = true) :
    (ofJson payload).toJson = payload.taken := by
  have hplain := Json.isPlain_taken h
  rw [← ofJson_taken]
  exact (shows_ofJson payload.taken hplain).toJson hplain.regular

end Value

/-! ## Nodes that take over -/

/-- An object node knows nothing of a key, and keeps what stands under it. -/
def ObjectShape.Ignores {ι : Type} (shape : ObjectShape ι) (key : String) : Prop :=
  Entries.contains key shape.properties = false ∧
    Conversion.destination shape key = .verbatim

namespace Entries

variable {α : Type} {key : String} {front back : List (String × α)}

theorem find?_append_of_not_mem (h : key ∉ front.map Prod.fst) :
    find? key (front ++ back) = find? key back := by
  induction front with
  | nil => rfl
  | cons entry rest ih =>
      obtain ⟨hkey, hrest⟩ := not_or.1 (mt List.mem_cons.2 h)
      exact (find?_cons_of_ne (Ne.symm hkey)).trans (ih hrest)

end Entries

namespace Conversion

variable {ι : Type} {mode : Mode} {common : Common} {path : Path}

/-- Under a key that an object node ignores, the result has what stands there. -/
theorem object_get? {answers : Inquiry ι → Except Failure Value → Prop} {shape : ObjectShape ι}
    {payload : Json} {replies : List Reply} {value : Value}
    (heard : Heard answers false ((Shape.object shape).inquiries mode payload) replies)
    (ruled : (Shape.object shape).ruling mode common payload path replies = .ok value)
    (hsorted : ((payload.asObj?.getD []).map Prod.fst).Pairwise (· < ·))
    {key : String} {item : Json} (hmem : (key, item) ∈ payload.asObj?.getD [])
    (hignores : shape.Ignores key) : value.get? key = some (Value.ofJson item) := by
  have hsorts := object_ok ruled
  have hapart := sorted_apart heard
  have hkeys : (sorted shape (payload.asObj?.getD []) replies).keys .additional =
      keysAt shape .additional (payload.asObj?.getD []) := hsorts.keys heard (fun h => nomatch h)
  rw [hsorts.value]
  generalize hbuckets : sorted shape (payload.asObj?.getD []) replies = buckets at hapart hkeys ⊢
  have hentry : (key, Value.ofJson item) ∈ buckets.additional := by
    rw [← hbuckets]
    exact List.mem_append_left _
      (mem_verbatim_of_destination (Bool.eq_false_iff.1 hignores.1) hignores.2 hmem)
  have hadditional : key ∈ buckets.keys .additional := List.mem_map.2 ⟨_, hentry, rfl⟩
  have hdeclared : key ∉ buckets.declared.map Prod.fst := fun hkey =>
    nomatch hapart key .declared .additional hkey hadditional
  have hpattern : key ∉ buckets.pattern.map Prod.fst := fun hkey =>
    nomatch hapart key .pattern .additional hkey hadditional
  have hfront : key ∉ (buckets.declared ++ buckets.pattern).map Prod.fst := by
    rw [List.map_append, List.mem_append]
    exact not_or.2 ⟨hdeclared, hpattern⟩
  have hordered : (buckets.additional.map Prod.fst).Pairwise (· < ·) := by
    have hsame : buckets.additional.map Prod.fst =
        keysAt shape .additional (payload.asObj?.getD []) := hkeys
    rw [hsame]
    exact hsorted.filter _
  exact (Entries.find?_append_of_not_mem hfront).trans (Entries.find?_of_mem hordered hentry)

end Conversion

namespace Shape

variable {ι : Type}

/-- A node that hands over every payload it accepts, without looking at its parts. -/
def takesOver : Shape ι → Bool
  | any => true
  | not _ => true
  | _ => false

end Shape

namespace Graph

open Conversion

variable {graph : Graph} {mode : Mode} {fuel : Nat} {id : NodeId} {common : Common}
  {payload : Json} {path : Path} {s t : ConversionState} {value : Value}

theorem convertWithin_takes_over {shape : Shape}
    (hnode : graph.get? id = some (.typed common shape)) (htakes : shape.takesOver = true)
    (h : graph.convertWithin mode (fuel + 1) id (some payload) path s = (.ok value, t)) :
    value = Value.ofJson payload := by
  rw [convertWithin_succ hnode] at h
  have hcoercion : shape.coercion? payload = none := by cases shape <;> first | rfl | cases htakes
  obtain ⟨given, replies, hgiven, hjudgement⟩ := typed_ok (congrArg Prod.fst h)
  obtain rfl : given = payload := by
    cases shape with
    | any | not => exact (Option.some.inj hgiven).symm
    | _ => cases htakes
  cases hjudgement with
  | null hnull =>
      cases given with
      | null => rfl
      | _ => cases hnull
  | @made cast _ made _ _ coerced _ _ ruled _ finished =>
      cases (coercedTo_of_none hcoercion).symm.trans coerced
      cases shape with
      | any =>
          cases ruled
          cases finished
          rfl
      | not subtypes =>
          cases finished
          dsimp only [Shape.ruling] at ruled
          split at ruled <;> cases ruled
          rfl
      | _ => cases htakes

theorem convertWithin_object_get? {shape : ObjectShape}
    (hnode : graph.get? id = some (.typed common (.object shape)))
    (hregular : payload.isRegular = true)
    (h : graph.convertWithin mode (fuel + 1) id (some payload) path s = (.ok value, t))
    {key : String} {item : Json} (hmem : (key, item) ∈ payload.asObj?.getD [])
    (hignores : shape.Ignores key) : value.get? key = some (Value.ofJson item) := by
  rw [convertWithin_succ hnode] at h
  obtain ⟨given, replies, hgiven, hjudgement⟩ := typed_ok (congrArg Prod.fst h)
  cases hgiven
  cases payload with
  | obj entries =>
      -- an object is neither `null` nor coerced
      rcases hjudgement with ⟨⟨⟩⟩ | ⟨-, coerced, -, heard, ruled, -, finished⟩
      cases (coercedTo_of_none rfl).symm.trans coerced
      cases finished
      have hsorted : (entries.map Prod.fst).Pairwise (· < ·) :=
        of_decide_eq_true (Json.test_of_all hregular)
      exact object_get? heard ruled hsorted hmem hignores
  | _ => cases hmem

/-- A node that accepts anything, and has no closed set and no checks, accepts anything but
`null`. -/
theorem convertWithin_any (hnode : graph.get? id = some (.typed common .any))
    (hallowed : common.allowed = none) (hchecks : common.checks = [])
    (hpayload : payload.isNull = false) :
    graph.convertWithin mode (fuel + 1) id (some payload) path s =
      (.ok (Value.ofJson payload), s) := by
  have hnone : violations common (.any : Shape) (Value.ofJson payload) payload = [] := by
    unfold violations Common.enumViolations
    rw [hallowed, hchecks]
    rfl
  have hplan : payloadPlan mode common payload path (.any : Shape) =
      ((.any : Shape).plan mode common payload path).andThen
        (approved common (.any : Shape) payload path) :=
    payloadPlan_of_admits hpayload (coercedTo_of_none rfl) rfl
  rw [convertWithin_succ hnode]
  show step _ mode id _ _ path s = _
  rw [step_typed]
  show ((payloadPlan mode common payload path (.any : Shape)).andThen _).run _ path s = _
  rw [hplan]
  show settle (((approved common (.any : Shape) payload path (Value.ofJson payload))).bind _) s = _
  unfold approved
  rw [hnone]
  rfl

/-- A payload that is taken over renders as it was, but for the integers beyond the signed words:
the doubles next to them stand in their places. So it comes back exactly if it has no such
integer. This is what a node that accepts anything makes of a payload, what a negation makes of
one that it accepts, and what an object makes of the parts under keys that it ignores. -/
theorem payloads_come_back (graph : Graph) (mode : Mode) (fuel : Nat) {payload : Json}
    (hregular : payload.isRegular = true) :
    (Value.ofJson payload).toJson = payload.taken ∧
    (payload.taken = payload ↔ payload.all Json.fitsHere = true) ∧
    (∀ {id common path s}, graph.get? id = some (.typed common .any) → common.allowed = none →
      common.checks = [] → payload.isNull = false →
      graph.convertWithin mode (fuel + 1) id (some payload) path s =
        (.ok (Value.ofJson payload), s)) ∧
    (∀ {id common shape path s value t}, graph.get? id = some (.typed common shape) →
      graph.convertWithin mode (fuel + 1) id (some payload) path s = (.ok value, t) →
      shape.takesOver = true → value.toJson = payload.taken) ∧
    ∀ {id common shape path s value t}, graph.get? id = some (.typed common (.object shape)) →
      graph.convertWithin mode (fuel + 1) id (some payload) path s = (.ok value, t) →
      ∀ {key item}, (key, item) ∈ payload.asObj?.getD [] → shape.Ignores key →
        (value.get? key).map Value.toJson = some item.taken := by
  refine ⟨Value.toJson_ofJson hregular, Json.taken_eq_self_iff hregular,
    fun hnode hallowed hchecks hpayload => convertWithin_any hnode hallowed hchecks hpayload,
    fun hnode h htakes => ?_, fun hnode h key item hmem hignores => ?_⟩
  · rw [convertWithin_takes_over hnode htakes h, Value.toJson_ofJson hregular]
  · have hitem : item.isRegular = true := by
      cases payload with
      | obj entries => exact Json.all_entries hregular hmem
      | _ => cases hmem
    rw [convertWithin_object_get? hnode hregular h hmem hignores]
    exact congrArg some (Value.toJson_ofJson hitem)

/-- Anything; texts; anything but a text; and objects of which only `x` is declared. -/
def handing : Graph where
  nodes := [.typed (.plain .builtIn) .any,
    .typed (.plain .builtIn) (.string .free),
    .typed (.plain .builtIn) (.not [1]),
    .typed (.plain .builtIn) (.object {
      properties := [("x", 1)], required := [], patterns := [], additional := .allow
      readOnly := [], writeOnly := [], size := .free })]
  closed := by decide

/-- A list of a negative zero, the double `1.0` and the integer one, and under `z` the greatest
integer of an unsigned word: as a whole the object does not come back, but its list does. -/
theorem payloads_come_back_handing :
    let mode := (Options.ofEntity .request).mode
    let list := Json.arr [.num (.double (.finite true 0 0)),
      .num (.double (.finite false (2 ^ 52) 1022)), .num (.integer 1 (by decide))]
    let payload := Json.obj [("a", list), ("z", .num (.integer 18446744073709551615 (by decide)))]
    (Value.ofJson payload).toJson = payload.taken ∧ payload.taken ≠ payload ∧
      handing.convertWithin mode 1 0 (some payload) .root (.start none) =
        (.ok (Value.ofJson payload), .start none) ∧
      (∃ value t, value.toJson = payload.taken ∧
        handing.convertWithin mode 2 2 (some payload) .root (.start none) = (.ok value, t)) ∧
      ∃ value t, (value.get? "a").map Value.toJson = some list ∧
        handing.convertWithin mode 2 3 (some payload) .root (.start none) = (.ok value, t) := by
  intro mode list payload
  have hregular : payload.isRegular = true := by decide +kernel
  obtain ⟨hback, hiff, hany, -, -⟩ := payloads_come_back handing mode 0 hregular
  obtain ⟨-, -, -, htakes, hobject⟩ := payloads_come_back handing mode 1 hregular
  have hlong : payload.taken ≠ payload := fun heq => absurd (hiff.1 heq) (by decide +kernel)
  have hruns : ∀ id ∈ [2, 3], ∃ value t,
      handing.convertWithin mode 2 id (some payload) .root (.start none) = (.ok value, t) := by
    have hok : ∀ id ∈ [2, 3], (handing.convertWithin mode 2 id (some payload) .root
        (.start none)).1.toOption.any (fun _ => true) = true := by decide +kernel
    intro id hid
    obtain ⟨value, hvalue, -⟩ := exists_of_any (hok id hid)
    exact ⟨value, exists_of_fst hvalue⟩
  obtain ⟨negation, t, hnegation⟩ := hruns 2 (by decide)
  obtain ⟨object, u, hrun⟩ := hruns 3 (by decide)
  refine ⟨hback, hlong, hany rfl rfl rfl rfl, ⟨negation, t, htakes rfl hnegation rfl, hnegation⟩,
    object, u, ?_, hrun⟩
  have hlist : list.taken = list := Json.taken_eq_self (by decide +kernel)
  exact hlist ▸ hobject rfl hrun List.mem_cons_self ⟨by decide +kernel, by decide +kernel⟩

/-- The greatest integer of an unsigned word comes back as the double `2^64`: not even a node that
accepts anything hands it over as it is. -/
theorem longest_integer_grows :
    let payload := Json.num (.integer 18446744073709551615 (by decide))
    payload.isRegular = true ∧
      (Value.ofJson payload).toJson = .num (.double (.finite false (2 ^ 52) (1074 + 12))) ∧
      (Value.ofJson payload).toJson ≠ payload := by
  intro payload
  have hdouble : Double.ofInt 18446744073709551615 = .finite false (2 ^ 52) (1074 + 12) := by
    decide +kernel
  have htaken : payload.taken = .num (.double (.finite false (2 ^ 52) (1074 + 12))) := by
    show Json.num (if FitsSigned 18446744073709551615 then
      .integer 18446744073709551615 (by decide) else .double (.ofInt 18446744073709551615)) = _
    rw [if_neg (by decide), hdouble]
  have hregular : payload.isRegular = true := rfl
  refine ⟨hregular, ?_⟩
  rw [Value.toJson_ofJson hregular, htaken]
  exact ⟨rfl, fun h => nomatch Json.num.inj h⟩

end Graph

end SchemaGraph
