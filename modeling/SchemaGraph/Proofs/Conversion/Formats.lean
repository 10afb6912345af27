import SchemaGraph.Proofs.Calendar
import SchemaGraph.Proofs.Checks
import SchemaGraph.Proofs.Codes
import SchemaGraph.Proofs.Conversion.Closure
import SchemaGraph.Proofs.Conversion.Fuel

set_option autoImplicit false

/-! # Texts with a format, there and back

A node for a text with a format takes a payload for a text, checks the text, and reads it
(`Graph.convertAt_text_iff`). The value it reads is written in one way out of many, and the node
takes the text so written for the same value again (`Graph.typed_texts_return`). Bytes go the other
way in a response: they are encoded before the checks, and a request decodes them after the same
checks (`Graph.encoded_texts_decode`).
-/

namespace SchemaGraph

/-! ## What a node makes of a text -/

namespace Conversion

variable {ι : Type} {convert : Converting ι} {mode : Mode} {common : Common} {format : TextFormat}
  {bounds : TextBounds} {payload cast : Json} {path : Path} {text : String} {value : Value}
  {s t : ConversionState}

/-- The text that a payload is taken for: a text itself, and what a lenient mode makes of a number
or a boolean. -/
def Takes (strict : Bool) (payload : Json) (text : String) : Prop :=
  payload = .str text ∨ strict = false ∧ Cast.toText? payload = some (.str text)

/-- Before its format is looked at, nothing is wrong with a text. -/
def Passes (common : Common) (bounds : TextBounds) (text : String) : Prop :=
  violations common (Shape.string bounds : Shape) (.string text) (.str text) = []

theorem coerced_of_takes (h : Takes mode.strict payload text) :
    coerced mode common (.text format bounds : Shape ι) payload path = pure (.str text) := by
  unfold coerced
  rcases h with rfl | ⟨hlenient, hcast⟩
  · split <;> rfl
  · rw [hlenient, if_neg Bool.false_ne_true]
    cases payload with
    | num n =>
        obtain rfl := Json.str.inj (Option.some.inj hcast)
        rfl
    | bool b =>
        obtain rfl := Json.str.inj (Option.some.inj hcast)
        rfl
    | _ => cases hcast

theorem takes_of_coerced
    (h : coerced mode common (.text format bounds : Shape ι) payload path s = (.ok cast, t)) :
    s = t ∧ (cast = payload ∨ mode.strict = false ∧ Cast.toText? payload = some cast) := by
  unfold coerced at h
  split at h
  · obtain ⟨rfl, rfl⟩ := pure_ok h
    exact ⟨rfl, .inl rfl⟩
  · rename_i hlenient
    have hlenient : mode.strict = false := Bool.eq_false_iff.2 hlenient
    cases payload with
    | str text =>
        obtain ⟨rfl, rfl⟩ := pure_ok h
        exact ⟨rfl, .inl rfl⟩
    | num n =>
        obtain ⟨rfl, rfl⟩ := pure_ok h
        exact ⟨rfl, .inr ⟨hlenient, rfl⟩⟩
    | bool b =>
        obtain ⟨rfl, rfl⟩ := pure_ok h
        exact ⟨rfl, .inr ⟨hlenient, rfl⟩⟩
    | _ => cases h

/-- A checked text is what its payload was taken for, and has passed. -/
theorem checked_text_ok :
    checked convert mode common (.text format bounds) payload path s = (.ok value, t) ↔
      ∃ text, Takes mode.strict payload text ∧ Passes common bounds text ∧ value = .string text ∧
        s = t := by
  constructor
  · intro h
    obtain ⟨cast, s', hcast, h⟩ := bind_ok h
    obtain ⟨rfl, htakes⟩ := takes_of_coerced hcast
    cases cast with
    | str text =>
        obtain ⟨taken, s'', htaken, h⟩ := bind_ok h
        obtain ⟨rfl, rfl⟩ := pure_ok htaken
        obtain ⟨_, s'', hchecked, h⟩ := bind_ok h
        obtain ⟨hviolations, rfl⟩ := failOn_ok hchecked
        obtain ⟨rfl, rfl⟩ := pure_ok h
        exact ⟨text, htakes.imp_left Eq.symm, List.map_eq_nil_iff.1 hviolations, rfl, rfl⟩
    | _ => cases h
  · rintro ⟨text, htakes, hpasses, rfl, rfl⟩
    have hpasses : violations common (.text format bounds : Shape ι) (.string text)
        (.str text) = [] := hpasses
    unfold checked
    rw [coerced_of_takes htakes, run_bind_of_ok (run_pure _ _)]
    show (failOn ((violations common _ (Value.string text) (Json.str text)).map _) >>= _) s = _
    rw [hpasses]
    rfl

theorem parsed_text_ok {v : Value} :
    parsed mode common format (.string text) path s = (.ok v, t) ↔
      format.finish? mode.entity text = some v ∧ s = t := by
  unfold parsed
  dsimp only
  cases format.finish? mode.entity text with
  | none =>
      constructor
      · intro h
        cases h
      · rintro ⟨hnone, -⟩
        cases hnone
  | some found =>
      constructor
      · intro h
        obtain ⟨rfl, rfl⟩ := pure_ok h
        exact ⟨rfl, rfl⟩
      · rintro ⟨⟨⟩, rfl⟩
        rfl

/-- Encoding makes nothing of no value, and no value of anything. -/
theorem encoded_isNull (format : TextFormat) (entity : Entity) (payload : Json) :
    (format.encoded entity payload).isNull = payload.isNull := by
  unfold TextFormat.encoded
  split <;> rfl

end Conversion

namespace Graph

variable {graph : Graph} {id : NodeId} {common : Common} {format : TextFormat} {bounds : TextBounds}

/-- A node for texts with a format converts a payload exactly if the text it takes it for passes the
checks and has the format. -/
theorem convertAt_text_iff (hnode : graph.get? id = some (.typed common (.text format bounds)))
    {payload : Json} (hpayload : payload ≠ .null) {mode : Mode} {fuel : Nat} {path : Path}
    {resolver : Option Resolver} {result : Converted} :
    (graph.convertAt (fuel + 1) id (some payload) path mode resolver).1 = .converted result ↔
      ∃ text, Conversion.Takes mode.strict (format.encoded mode.entity payload) text ∧
        Conversion.Passes common bounds text ∧
        format.finish? mode.entity text = some result.value ∧ result.links = [] := by
  have hnull : (format.encoded mode.entity payload).isNull = false := by
    rw [Conversion.encoded_isNull]
    cases payload with
    | null => exact absurd rfl hpayload
    | _ => rfl
  have hrun : graph.convertWithin mode (fuel + 1) id (some payload) path =
      (Conversion.checked (graph.convertWithin mode fuel) mode common (.text format bounds)
        (format.encoded mode.entity payload) path >>= fun value =>
          Conversion.parsed mode common format value path) := by
    rw [convertWithin_succ hnode]
    show (Conversion.judged _ mode common _ (some (format.encoded mode.entity payload)) path >>=
      _) = _
    unfold Conversion.judged Conversion.present?
    dsimp only
    rw [hnull, if_neg Bool.false_ne_true]
  constructor
  · intro h
    obtain ⟨-, t, hconverts, hlinks⟩ := run_of_converted h
    rw [hrun] at hconverts
    obtain ⟨value, s, hchecked, hparsed⟩ := bind_ok hconverts
    obtain ⟨text, htakes, hpasses, rfl, rfl⟩ := Conversion.checked_text_ok.1 hchecked
    obtain ⟨hfinish, rfl⟩ := Conversion.parsed_text_ok.1 hparsed
    exact ⟨text, htakes, hpasses, hfinish, hlinks⟩
  · rintro ⟨text, htakes, hpasses, hfinish, hlinks⟩
    have hchecked : Conversion.checked (graph.convertWithin mode fuel) mode common
        (.text format bounds) (format.encoded mode.entity payload) path (.start resolver) =
        (.ok (.string text), .start resolver) :=
      Conversion.checked_text_ok.2 ⟨text, htakes, hpasses, rfl, rfl⟩
    have hparsed : Conversion.parsed mode common format (.string text) path (.start resolver) =
        (.ok result.value, .start resolver) := Conversion.parsed_text_ok.2 ⟨hfinish, rfl⟩
    unfold convertAt
    rw [hrun, run_bind_of_ok hchecked, hparsed]
    show Outcome.converted ⟨result.value, []⟩ = _
    rw [← hlinks]

end Graph

/-! ## The one way in which a value is written -/

theorem Value.toJson_scalar {value : Value} (harray : value.isArray = false)
    (hmapping : value.isMapping = false) : value.toJson = value.scalarJson := by
  cases value with
  | array => cases harray
  | map => cases hmapping
  | object => cases hmapping
  | _ => rfl

namespace TextFormat

variable {format : TextFormat} {text : String} {value : Value}

theorem finish?_request (format : TextFormat) (text : String) :
    format.finish? .request text = format.read? text := by
  cases format <;> rfl

/-- A response of anything but bytes is the text itself, if it is one that can be read. -/
theorem finish?_response (hformat : format ≠ .bytes) (h : format.read? text = some value) :
    format.finish? .response text = some (.string text) := by
  cases format with
  | bytes => exact absurd rfl hformat
  | uuid => exact congrArg (Option.map fun _ => Value.string text) h
  | _ => rfl

/-- Dates and timestamps are no addresses and no URLs: they have no at sign, and letters stand
behind digits only. -/
theorem neither_address_nor_url (hformat : format = .date ∨ format = .timestamp)
    (h : format.read? text = some value) : '@' ∉ text.toList ∧ Url.read? text = none := by
  rcases hformat with rfl | rfl
  · obtain ⟨date, hdate, -⟩ := Option.map_eq_some_iff.1 h
    obtain ⟨hmarks, -⟩ := Date.read?_passes hdate
    refine ⟨fun hat => ?_, Url.read?_eq_none fun c hc => ?_⟩
    · exact absurd (hmarks '@' hat) (by unfold Date.IsMark; decide)
    · have hmem := (List.dropWhile_sublist _).subset (List.mem_of_head? hc)
      exact (hmarks c hmem).not_letter
  · obtain ⟨t, ht, -⟩ := Option.map_eq_some_iff.1 h
    obtain ⟨hmarks, ⟨first, more, htext, hdigit⟩, -⟩ := Timestamp.read?_passes ht
    refine ⟨fun hat => ?_, Url.read?_eq_none fun c hc => ?_⟩
    · exact absurd (hmarks '@' hat) (by unfold Timestamp.IsMark; decide)
    · have hhigh : ¬decide (first.toNat ≤ 0x20) = true := by
        have hrange := Ascii.isDigit_range hdigit
        rw [decide_eq_true_eq]
        omega
      rw [htext, List.dropWhile_cons, if_neg hhigh] at hc
      obtain rfl := Option.some.inj hc
      exact Date.IsMark.not_letter (.inr (.inl hdigit))

/-- What is read from a text has no parts. -/
theorem toJson_of_read? (h : format.read? text = some value) : value.toJson = value.scalarJson := by
  cases format with
  | date =>
      obtain ⟨date, -, rfl⟩ := Option.map_eq_some_iff.1 h
      exact Value.toJson_scalar rfl rfl
  | timestamp =>
      obtain ⟨t, -, rfl⟩ := Option.map_eq_some_iff.1 h
      exact Value.toJson_scalar rfl rfl
  | pattern =>
      obtain ⟨-, hsame⟩ := Option.ite_none_right_eq_some.1 h
      obtain rfl := Option.some.inj hsame
      exact Value.toJson_scalar rfl rfl
  | uuid =>
      obtain ⟨uuid, -, rfl⟩ := Option.map_eq_some_iff.1 h
      exact Value.toJson_scalar rfl rfl
  | bytes =>
      obtain ⟨bytes, -, rfl⟩ := Option.map_eq_some_iff.1 h
      exact Value.toJson_scalar rfl rfl

/-- A value that was read is written as a text of which it is read again. Only dates and timestamps
have more than one spelling. -/
theorem read?_written (h : format.read? text = some value) :
    ∃ written, value.toJson = .str written ∧ format.read? written = some value ∧
      (written = text ∨ format = .date ∨ format = .timestamp) := by
  rw [toJson_of_read? h]
  cases format with
  | date =>
      obtain ⟨date, hdate, rfl⟩ := Option.map_eq_some_iff.1 h
      have hagain : TextFormat.date.read? date.text = some (.date date) := by
        unfold read?
        dsimp only
        rw [Date.read?_text (Date.read?_passes hdate).2, Option.map_some]
      exact ⟨date.text, rfl, hagain, .inr (.inl rfl)⟩
  | timestamp =>
      obtain ⟨t, ht, rfl⟩ := Option.map_eq_some_iff.1 h
      have hagain : TextFormat.timestamp.read? t.text = some (.timestamp t) := by
        unfold read?
        dsimp only
        rw [Timestamp.read?_text (Timestamp.read?_passes ht).2.2, Option.map_some]
      exact ⟨t.text, rfl, hagain, .inr (.inr rfl)⟩
  | pattern =>
      obtain ⟨-, hsame⟩ := Option.ite_none_right_eq_some.1 h
      obtain rfl := Option.some.inj hsame
      exact ⟨text, rfl, h, .inl rfl⟩
  | uuid =>
      obtain ⟨uuid, huuid, rfl⟩ := Option.map_eq_some_iff.1 h
      have htext := Uuid.text_of_readVersioned? huuid
      exact ⟨text, congrArg Json.str htext, h, .inl rfl⟩
  | bytes =>
      obtain ⟨bytes, hbytes, rfl⟩ := Option.map_eq_some_iff.1 h
      have htext : String.ofList (Base64.encode bytes) = text := by
        rw [Base64.encode_of_decode? hbytes, String.ofList_toList]
      exact ⟨text, congrArg Json.str htext, h, .inl rfl⟩

end TextFormat

namespace Conversion

/-- Without bounds and an enumeration, only checks that are not about texts can pass a text that is
neither an address nor a URL; they pass every text. -/
theorem Passes.any {common : Common} {text : String}
    (hallowed : common.allowed = none ∨ common.allowed = some []) (hmail : '@' ∉ text.toList)
    (hurl : Url.read? text = none) (h : Passes common .free text) (other : String) :
    Passes common .free other := by
  have henum (payload : Json) : common.enumViolations payload = [] := by
    unfold Common.enumViolations
    rcases hallowed with hnone | hempty
    · rw [hnone]
    · rw [hempty]
      rfl
  have hshape (written : String) : (Shape.string .free : Shape).violations common.messages
      (.string written) (.str written) = [] := rfl
  unfold Passes violations at h ⊢
  rw [henum, hshape, List.nil_append, List.nil_append] at h ⊢
  rw [List.filterMap_eq_nil_iff] at h ⊢
  intro check hcheck
  exact Check.accepts_any hmail hurl (h check hcheck) other

end Conversion

namespace Graph

variable {graph : Graph} {id : NodeId} {common : Common} {format : TextFormat} {bounds : TextBounds}

theorem fuel_of_converted {fuel : Nat} {input : Option Json} {path : Path} {mode : Mode}
    {resolver : Option Resolver} {result : Converted}
    (h : (graph.convertAt fuel id input path mode resolver).1 = .converted result) :
    ∃ less, fuel = less + 1 := by
  cases fuel with
  | zero => cases h
  | succ less => exact ⟨less, rfl⟩

/-- A node for texts with a format, without bounds and an enumeration, takes every value it reads
in a request for the same value again, once that is written as JSON. Unless the value is one of
bytes, a response gives back the text in which it is written. -/
theorem typed_texts_return (hnode : graph.get? id = some (.typed common (.text format .free)))
    (hallowed : common.allowed = none ∨ common.allowed = some []) {payload : Json}
    (hpayload : payload ≠ .null) {strict : Bool} {fuel : Nat} {path : Path}
    {resolver : Option Resolver} {result : Converted}
    (h : (graph.convertAt fuel id (some payload) path ⟨.request, strict⟩ resolver).1 =
      .converted result) :
    ∃ text, result.value.toJson = .str text ∧ ∀ strict' fuel' path' resolver',
      (graph.convertAt (fuel' + 1) id (some (.str text)) path' ⟨.request, strict'⟩ resolver').1 =
          .converted result ∧
        (format ≠ .bytes →
          (graph.convertAt (fuel' + 1) id (some (.str text)) path' ⟨.response, strict'⟩
            resolver').1 = .converted ⟨.string text, []⟩) := by
  obtain ⟨fuel, rfl⟩ := fuel_of_converted h
  obtain ⟨text, -, hpasses, hfinish, hlinks⟩ := (convertAt_text_iff hnode hpayload).1 h
  rw [TextFormat.finish?_request] at hfinish
  obtain ⟨written, hjson, hread, hspelling⟩ := TextFormat.read?_written hfinish
  -- with one spelling the text has passed itself, with many the checks are not about it
  have hwritten : Conversion.Passes common .free written := by
    rcases hspelling with rfl | hformat
    · exact hpasses
    · obtain ⟨hmail, hurl⟩ := TextFormat.neither_address_nor_url hformat hfinish
      exact hpasses.any hallowed hmail hurl written
  refine ⟨written, hjson, fun strict' fuel' path' resolver' => ⟨?_, fun hformat => ?_⟩⟩
  · refine (convertAt_text_iff hnode (by nofun)).2 ⟨written, .inl ?_, hwritten, ?_, hlinks⟩
    · cases format <;> rfl
    · rw [TextFormat.finish?_request]
      exact hread
  · refine (convertAt_text_iff hnode (by nofun)).2 ⟨written, .inl ?_, hwritten, ?_, rfl⟩
    · exact Conversion.encoded_response hformat _
    · exact TextFormat.finish?_response hformat hread

/-- A graph of one node for texts with a format. -/
def formatted (common : Common) (format : TextFormat) (bounds : TextBounds) : Graph where
  nodes := [.typed common (.text format bounds)]
  closed := by simp [Node.children, Shape.children]

/-- A leap second, with a separator, a fraction and an offset that are written in another way. -/
theorem typed_texts_return_leapSecond :
    let graph := formatted (.plain .builtIn) .timestamp .free
    let t : Timestamp := ⟨⟨2016, 12, 31⟩, 23, 59, 60, 500000000, 0⟩
    (graph.convertAt 1 0 (some (.str "2016-12-31t23:59:60.5-00:00")) .root ⟨.request, true⟩
        none).1 = .converted ⟨.timestamp t, []⟩ ∧
      t.text = "2016-12-31T23:59:60.500+00:00" ∧
      ∃ text, (Value.timestamp t).toJson = .str text ∧ ∀ strict fuel path resolver,
        (graph.convertAt (fuel + 1) 0 (some (.str text)) path ⟨.request, strict⟩ resolver).1 =
            .converted ⟨.timestamp t, []⟩ ∧
          (graph.convertAt (fuel + 1) 0 (some (.str text)) path ⟨.response, strict⟩ resolver).1 =
            .converted ⟨.string text, []⟩ := by
  intro graph t
  have hnode : graph.get? 0 = some (.typed (.plain .builtIn) (.text .timestamp .free)) := rfl
  have hread : Timestamp.read? "2016-12-31t23:59:60.5-00:00" = some t := by decide +kernel
  have hconverts : (graph.convertAt 1 0 (some (.str "2016-12-31t23:59:60.5-00:00")) .root
      ⟨.request, true⟩ none).1 = .converted ⟨.timestamp t, []⟩ := by
    refine (convertAt_text_iff hnode (by nofun)).2 ⟨_, .inl rfl, rfl, ?_, rfl⟩
    rw [TextFormat.finish?_request]
    unfold TextFormat.read?
    dsimp only
    rw [hread, Option.map_some]
  obtain ⟨text, hjson, hreturn⟩ := typed_texts_return hnode (.inl rfl) (by nofun) hconverts
  refine ⟨hconverts, by decide +kernel, text, hjson, fun strict fuel path resolver => ?_⟩
  obtain ⟨hrequest, hresponse⟩ := hreturn strict fuel path resolver
  exact ⟨hrequest, hresponse (by decide)⟩

/-- A response of bytes, which is a text, is encoded, and passes the checks of the node encoded. A
request for what it gives decodes to the bytes of the text in UTF-8. -/
theorem encoded_texts_decode (hnode : graph.get? id = some (.typed common (.text .bytes bounds)))
    {raw : String} {strict : Bool} {fuel : Nat} {path : Path} {resolver : Option Resolver}
    {result : Converted}
    (h : (graph.convertAt fuel id (some (.str raw)) path ⟨.response, strict⟩ resolver).1 =
      .converted result) :
    ∃ text, result = ⟨.string text, []⟩ ∧ ∀ strict' fuel' path' resolver',
      (graph.convertAt (fuel' + 1) id (some (.str text)) path' ⟨.request, strict'⟩ resolver').1 =
        .converted ⟨.bytes raw.toUTF8.data.toList, []⟩ := by
  obtain ⟨fuel, rfl⟩ := fuel_of_converted h
  obtain ⟨text, htakes, hpasses, hfinish, hlinks⟩ := (convertAt_text_iff hnode (by nofun)).1 h
  obtain ⟨value, links⟩ := result
  obtain rfl := Option.some.inj hfinish
  obtain rfl : links = [] := hlinks
  have htext : text = String.ofList (Base64.encode (Utf8.encode raw.toList)) := by
    rcases htakes with hsame | ⟨-, hcast⟩
    · exact (Json.str.inj hsame).symm
    · cases hcast
  refine ⟨text, rfl, fun strict' fuel' path' resolver' => ?_⟩
  refine (convertAt_text_iff hnode (by nofun)).2 ⟨text, .inl rfl, hpasses, ?_, rfl⟩
  have hdecode : Base64.decode? text.toList = some raw.toUTF8.data.toList := by
    rw [htext, String.toList_ofList, Base64.decode?_encode, Utf8.encode_toList]
  exact congrArg (Option.map Value.bytes) hdecode

/-- The enumeration and the length are those of the encoded text, in both directions. -/
theorem encoded_texts_decode_enumerated :
    let common : Common := ⟨.builtIn, none, false, some [.str "aMOp"], []⟩
    let graph := formatted common .bytes ⟨⟨some 4, some 4⟩, none⟩
    (graph.convertAt 1 0 (some (.str "h\u00e9")) .root ⟨.response, true⟩ none).1 =
        .converted ⟨.string "aMOp", []⟩ ∧
      ∀ strict fuel path resolver,
        (graph.convertAt (fuel + 1) 0 (some (.str "aMOp")) path ⟨.request, strict⟩ resolver).1 =
          .converted ⟨.bytes [0x68, 0xc3, 0xa9], []⟩ := by
  intro common graph
  have hnode : graph.get? 0 = some (.typed common (.text .bytes ⟨⟨some 4, some 4⟩, none⟩)) := rfl
  have hencoded : String.ofList (Base64.encode (Utf8.encode "h\u00e9".toList)) = "aMOp" := by
    decide +kernel
  have hbytes : "h\u00e9".toUTF8.data.toList = [0x68, 0xc3, 0xa9] := by decide +kernel
  have hpasses : Conversion.Passes common ⟨⟨some 4, some 4⟩, none⟩ "aMOp" :=
    List.isEmpty_iff.1 (by decide +kernel)
  have hconverts : (graph.convertAt 1 0 (some (.str "h\u00e9")) .root ⟨.response, true⟩ none).1 =
      .converted ⟨.string "aMOp", []⟩ :=
    (convertAt_text_iff hnode (by nofun)).2
      ⟨_, .inl (congrArg Json.str hencoded), hpasses, rfl, rfl⟩
  obtain ⟨text, hsame, hdecodes⟩ := encoded_texts_decode hnode hconverts
  obtain rfl : text = "aMOp" := by
    cases hsame
    rfl
  rw [hbytes] at hdecodes
  exact ⟨hconverts, hdecodes⟩

end Graph

end SchemaGraph
