import SchemaGraph.Proofs.Amounts
import SchemaGraph.Proofs.Compiler.Integers
import SchemaGraph.Proofs.Conversion.Verbatim
import SchemaGraph.Proofs.Digits
import SchemaGraph.Proofs.Text

set_option autoImplicit false

/-! # Casts to integers

A lenient conversion to an integer takes a number without its fraction, and the integer that a text
writes between blanks (`Json.Denotes`). The result is that integer if a signed word holds it, and
everything else is refused: nothing wraps, and nothing is replaced by a limit. One payload is
refused although a signed word holds what it denotes, the double of the least integer
(`Json.IsLeastDouble`): the guard of doubles is about the magnitude.
-/

namespace SchemaGraph

/-! ## Trimmed texts -/

theorem trimBlank_append {front middle back : List Char} (hfront : ∀ c ∈ front, isBlank c = true)
    (hback : ∀ c ∈ back, isBlank c = true) (hne : middle ≠ [])
    (hmiddle : ∀ c ∈ middle, isBlank c = false) : trimBlank (front ++ middle ++ back) = middle := by
  have hstart : (front ++ (middle ++ back)).dropWhile isBlank = middle ++ back := by
    refine dropWhile_append_of_stops hfront fun c hc => hmiddle c (List.mem_of_mem_head? ?_)
    rwa [List.head?_append_of_ne_nil _ hne] at hc
  have hend : (back.reverse ++ middle.reverse).dropWhile isBlank = middle.reverse := by
    refine dropWhile_append_of_stops (fun c hc => hback c (List.mem_reverse.1 hc)) fun c hc => ?_
    exact hmiddle c (List.mem_reverse.1 (List.mem_of_mem_head? hc))
  unfold trimBlank
  rw [List.append_assoc, hstart, List.reverse_append, hend, List.reverse_reverse]

/-- Trimming cuts blanks off, and nothing else. -/
theorem exists_trimBlank (text : List Char) : ∃ front back, (∀ c ∈ front, isBlank c = true) ∧
    (∀ c ∈ back, isBlank c = true) ∧ text = front ++ trimBlank text ++ back := by
  have hcut : ∀ text : List Char, ∃ front, (∀ c ∈ front, isBlank c = true) ∧
      text = front ++ text.dropWhile isBlank := fun text =>
    ⟨text.takeWhile isBlank, List.all_eq_true.1 List.all_takeWhile,
      List.takeWhile_append_dropWhile.symm⟩
  obtain ⟨front, hfront, hstart⟩ := hcut text
  obtain ⟨back, hback, hend⟩ := hcut (text.dropWhile isBlank).reverse
  refine ⟨front, back.reverse, hfront, fun c hc => hback c (List.mem_reverse.1 hc), ?_⟩
  have hrest := congrArg List.reverse hend
  rw [List.reverse_reverse, List.reverse_append] at hrest
  unfold trimBlank
  rw [List.append_assoc, ← hrest]
  exact hstart

/-! ## Written integers -/

namespace Numeral

/-- A text that is an integer: a sign or none, and digits. -/
inductive Writes : List Char → Int → Prop where
  | plain {digits : List Char} {value : Nat} (written : AreDigits digits value) :
      Writes digits value
  | plus {digits : List Char} {value : Nat} (written : AreDigits digits value) :
      Writes ('+' :: digits) value
  | minus {digits : List Char} {value : Nat} (written : AreDigits digits value) :
      Writes ('-' :: digits) (-value)

variable {text digits : List Char} {n : Int} {value : Nat}

theorem takeSign_of_digits (h : AreDigits digits value) : takeSign digits = (false, digits) := by
  obtain ⟨hne, hall, -⟩ := h
  cases digits with
  | nil => exact absurd rfl hne
  | cons c rest =>
      have hdigit := hall c List.mem_cons_self
      unfold takeSign
      split
      · rename_i heq
        rw [(List.cons.inj heq).1] at hdigit
        exact absurd hdigit (by decide)
      · rename_i heq
        rw [(List.cons.inj heq).1] at hdigit
        exact absurd hdigit (by decide)
      · rfl

/-- An integer with its sign. -/
def signed (negative : Bool) (value : Nat) : Int := if negative then -value else value

theorem readSigned?_eq (text : List Char) : readSigned? text =
    (readDigits? (takeSign text).2).bind fun value =>
      if FitsSigned (signed (takeSign text).1 value) then some (signed (takeSign text).1 value)
      else none := rfl

theorem writes_iff : Writes text n ↔
    ∃ value, AreDigits (takeSign text).2 value ∧ n = signed (takeSign text).1 value := by
  constructor
  · intro h
    cases h with
    | plain written =>
        rw [takeSign_of_digits written]
        exact ⟨_, written, rfl⟩
    | plus written => exact ⟨_, written, rfl⟩
    | minus written => exact ⟨_, written, rfl⟩
  · rintro ⟨value, written, rfl⟩
    revert written
    unfold takeSign
    split
    · exact .minus
    · exact .plus
    · exact .plain

theorem Writes.unique {m : Int} (hm : Writes text m) (hn : Writes text n) : m = n := by
  obtain ⟨value, ⟨-, -, hvalue⟩, rfl⟩ := writes_iff.1 hm
  obtain ⟨other, ⟨-, -, hother⟩, rfl⟩ := writes_iff.1 hn
  rw [hvalue, hother]

/-- What is read is what is written, if a signed word holds it. -/
theorem readSigned?_iff : readSigned? text = some n ↔ Writes text n ∧ FitsSigned n := by
  rw [readSigned?_eq, writes_iff, Option.bind_eq_some_iff]
  constructor
  · rintro ⟨value, hvalue, h⟩
    obtain ⟨hfits, h⟩ := Option.ite_none_right_eq_some.1 h
    cases h
    exact ⟨⟨value, readDigits?_iff.1 hvalue, rfl⟩, hfits⟩
  · rintro ⟨⟨value, hvalue, rfl⟩, hfits⟩
    exact ⟨value, readDigits?_iff.2 hvalue, if_pos hfits⟩

/-- There are no blanks in a written integer. -/
theorem Writes.not_blank (h : Writes text n) : text ≠ [] ∧ ∀ c ∈ text, isBlank c = false := by
  have hdigit : ∀ c, Ascii.isDigit c = true → isBlank c = false := by
    intro c hc
    obtain ⟨hlow, hhigh⟩ := Bool.and_eq_true_iff.1 hc
    have hlow : '0'.toNat ≤ c.toNat := of_decide_eq_true hlow
    have hhigh : c.toNat ≤ '9'.toNat := of_decide_eq_true hhigh
    have hlow : 48 ≤ c.toNat := hlow
    have hhigh : c.toNat ≤ 57 := hhigh
    unfold isBlank
    simp only [Bool.or_eq_false_iff, Bool.and_eq_false_iff, decide_eq_false_iff_not,
      beq_eq_false_iff_ne]
    omega
  cases h with
  | plain written => exact ⟨written.1, fun c hc => hdigit c (written.2.1 c hc)⟩
  | plus written =>
      refine ⟨List.cons_ne_nil _ _, fun c hc => ?_⟩
      rcases List.mem_cons.1 hc with rfl | hc
      · rfl
      · exact hdigit c (written.2.1 c hc)
  | minus written =>
      refine ⟨List.cons_ne_nil _ _, fun c hc => ?_⟩
      rcases List.mem_cons.1 hc with rfl | hc
      · rfl
      · exact hdigit c (written.2.1 c hc)

end Numeral

/-! ## What payloads denote -/

namespace Number

/-- The amount of a number without its fraction. -/
def whole? (x : Number) : Option Int :=
  match x.amount? with
  | some (.units u) => some (u.tdiv Double.unitsPerOne)
  | _ => none

theorem whole?_integer {n : Int} (fits : FitsWord n) : (integer n fits).whole? = some n :=
  congrArg some (Int.mul_tdiv_cancel n Double.unitsPerOne_pos.ne')

theorem whole?_double (d : Double) : (double d).whole? = d.truncate? := by
  cases d with
  | finite s m q =>
      have hunits := Double.units_finite s m q
      have hamount : (double (.finite s m q)).amount? = some (.units _) :=
        Double.amount?_of_units hunits
      unfold whole? Double.truncate?
      rw [hamount, hunits]
      rfl
  | _ => rfl

end Number

namespace Json

/-- A number denotes its amount without the fraction, and a text the integer that it writes between
blanks. -/
inductive Denotes : Json → Int → Prop where
  | number {x : Number} {n : Int} (whole : x.whole? = some n) : Denotes (num x) n
  | text {s : String} {front middle back : List Char} {n : Int}
      (parts : s.toList = front ++ middle ++ back) (front : ∀ c ∈ front, isBlank c = true)
      (back : ∀ c ∈ back, isBlank c = true) (writes : Numeral.Writes middle n) : Denotes (str s) n

/-- A double that denotes the least integer of a signed word. -/
def IsLeastDouble (payload : Json) : Prop :=
  ∃ d, payload = num (.double d) ∧ payload.Denotes (-0x8000000000000000)

end Json

/-! ## What is cast -/

/-- Dropping the fraction divides the magnitude. -/
theorem Double.natAbs_tdiv (u : Int) :
    (u.tdiv unitsPerOne).natAbs = u.natAbs / unitsPerOne := by
  rw [Int.natAbs_tdiv, Int.natAbs_natCast]
  rfl

theorem Double.fits_of_truncate {d : Double} {n : Int} (h : d.truncate? = some n) :
    d.fitsWord = true ↔ FitsSigned n ∧ n ≠ -0x8000000000000000 := by
  obtain ⟨u, hu, rfl⟩ := Option.map_eq_some_iff.1 h
  have hunits : 0 < unitsPerOne := Int.natCast_pos.1 unitsPerOne_pos
  rw [fitsWord_of_units hu, ← Nat.div_lt_iff_lt_mul hunits, ← natAbs_tdiv]
  unfold FitsSigned
  generalize u.tdiv unitsPerOne = n
  omega

namespace Json

variable {payload : Json} {n : Int}

theorem denotes_number {x : Number} : (num x).Denotes n ↔ x.whole? = some n :=
  ⟨fun | .number whole => whole, .number⟩

theorem denotes_text {s : String} : (str s).Denotes n ↔ Numeral.Writes (trimBlank s.toList) n := by
  constructor
  · rintro (_ | ⟨parts, hfront, hback, writes⟩)
    obtain ⟨hne, hmiddle⟩ := writes.not_blank
    rw [parts, trimBlank_append hfront hback hne hmiddle]
    exact writes
  · intro h
    obtain ⟨front, back, hfront, hback, hparts⟩ := exists_trimBlank s.toList
    exact .text hparts hfront hback h

/-- A payload denotes one integer at most. -/
theorem Denotes.unique {m : Int} (hm : payload.Denotes m) (hn : payload.Denotes n) : m = n := by
  cases hm with
  | number whole => exact Option.some.inj (whole.symm.trans (denotes_number.1 hn))
  | text parts front back writes =>
      exact (denotes_text.1 (.text parts front back writes)).unique (denotes_text.1 hn)

theorem isLeastDouble_iff {d : Double} :
    (num (.double d)).IsLeastDouble ↔ d.truncate? = some (-0x8000000000000000) := by
  rw [← Number.whole?_double, ← denotes_number]
  exact ⟨fun ⟨_, _, h⟩ => h, fun h => ⟨d, rfl, h⟩⟩

end Json

/-- What a cast comes to. -/
theorem Cast.toInteger?_iff {payload cast : Json} (hinteger : payload.isInteger = false) :
    toInteger? payload = some cast ↔
      ∃ n, payload.Denotes n ∧ FitsSigned n ∧ ¬payload.IsLeastDouble ∧ .ofInt n = cast := by
  cases payload with
  | str s =>
      have hleast : ¬(Json.str s).IsLeastDouble := nofun
      refine Option.map_eq_some_iff.trans (exists_congr fun n => ?_)
      rw [Numeral.readSigned?_iff, ← Json.denotes_text]
      simp only [hleast, not_false_eq_true, true_and, and_assoc]
  | num x =>
      cases x with
      | integer m fits => cases hinteger
      | double d =>
          have hcast : toInteger? (.num (.double d)) =
              if d.fitsWord then d.truncate?.map Json.ofInt else none := rfl
          rw [hcast, Option.ite_none_right_eq_some, Option.map_eq_some_iff, ← exists_and_left]
          refine exists_congr fun n => ?_
          rw [Json.denotes_number, Number.whole?_double, Json.isLeastDouble_iff]
          constructor
          · rintro ⟨hfits, hwhole, hsame⟩
            obtain ⟨hsigned, hleast⟩ := (Double.fits_of_truncate hwhole).1 hfits
            refine ⟨hwhole, hsigned, fun h => hleast ?_, hsame⟩
            exact Option.some.inj (hwhole.symm.trans h)
          · rintro ⟨hwhole, hsigned, hleast, hsame⟩
            refine ⟨(Double.fits_of_truncate hwhole).2 ⟨hsigned, ?_⟩, hwhole, hsame⟩
            rintro rfl
            exact hleast hwhole
  | null | bool | arr | obj => exact iff_of_false nofun fun ⟨_, h, _⟩ => nomatch h

/-! ## Conversions to integers -/

namespace Conversion

variable {ι : Type} {common : Common} {shape : Shape ι} {mode : Mode} {payload cast : Json}
  {key : MessageKey}

/-- A payload that is cast goes on as what it is cast to. -/
theorem checked_cast (convert : Converting ι) (hmode : mode.strict = false)
    (hcoercion : shape.coercion? payload = some (key, some cast))
    (hcast : shape.coercion? cast = none) (path : Path) :
    checked convert mode common shape payload path =
      checked convert mode common shape cast path := by
  have hcoerced : coerced mode common shape payload path = pure cast := by
    unfold coerced
    rw [hmode, hcoercion]
    rfl
  unfold checked
  rw [hcoerced, coerced_of_none hcast]

/-- A payload that can't be cast is refused. -/
theorem checked_refused (convert : Converting ι) (hmode : mode.strict = false)
    (hcoercion : shape.coercion? payload = some (key, none)) (path : Path) :
    checked convert mode common shape payload path = failWith common.messages path key [] := by
  have hcoerced : coerced mode common shape payload path =
      failWith common.messages path key [] := by
    unfold coerced
    rw [hmode, hcoercion]
    rfl
  unfold checked
  rw [hcoerced]
  rfl

/-- A node without restrictions takes every integer of a signed word. -/
theorem checked_signed (convert : Converting ι) (hallowed : common.allowed = none)
    (hchecks : common.checks = []) {n : Int} (hn : FitsSigned n) (path : Path) :
    checked convert mode common (.integer .free) (.ofInt n) path = pure (.integer n hn) := by
  have hnone : violations common (.integer .free : Shape ι) (.integer n hn) (.ofInt n) = [] := by
    unfold violations Common.enumViolations
    rw [hallowed, hchecks]
    rfl
  rw [checked_integer convert mode .free hn, hnone]
  rfl

/-- It has no value for the others. -/
theorem checked_unsigned (convert : Converting ι) {n : Int} (fits : FitsWord n)
    (hn : ¬FitsSigned n) (path : Path) :
    checked convert mode common (.integer .free) (.num (.integer n fits)) path =
      failWith common.messages path .int64Format [] := by
  have hvalue : Value.ofJson (.num (.integer n fits)) = .number (Double.ofInt n) := dif_neg hn
  have hcoerced : coerced mode common (.integer .free : Shape ι) (.num (.integer n fits)) path =
      pure (.num (.integer n fits)) := coerced_of_none rfl
  have hresult : result convert mode common (.integer .free) (.num (.integer n fits)) path =
      failWith common.messages path .int64Format [] := by
    unfold result
    dsimp only
    rw [hvalue]
  unfold checked
  rw [hcoerced, pure_bind]
  show (result convert mode common (.integer .free) (.num (.integer n fits)) path >>= _) = _
  rw [hresult]
  rfl

end Conversion

namespace Graph

open Conversion

variable {graph : Graph} {id : NodeId} {common : Common} {mode : Mode}

/-- What a conversion of a payload that is neither `null` nor a boolean to an integer comes to. -/
structure CastsExactly (common : Common) (path : Path) (payload : Json) (outcome : Outcome) :
    Prop where
  /-- The result is what the payload denotes, unless it is the double of the least integer. -/
  converts : ∀ n fits, outcome = .converted ⟨.integer n fits, []⟩ ↔
    payload.Denotes n ∧ ¬payload.IsLeastDouble
  /-- A payload that denotes no integer of a signed word is refused. -/
  refuses : (∀ n, payload.Denotes n → FitsSigned n → payload.IsLeastDouble) →
    ∃ key, (key = .integerCast ∨ key = .int64Format) ∧
      outcome = .failed (.single (common.error path key []))

theorem castsExactly_of_refused {path : Path} {payload : Json} {key : MessageKey}
    (hkey : key = .integerCast ∨ key = .int64Format)
    (hnone : ∀ n, payload.Denotes n → FitsSigned n → payload.IsLeastDouble) :
    CastsExactly common path payload (.failed (.single (common.error path key []))) where
  converts n fits := iff_of_false nofun fun h => h.2 (hnone n h.1 fits)
  refuses _ := ⟨key, hkey, rfl⟩

theorem castsExactly_of_converted {path : Path} {payload : Json} {m : Int} (hm : FitsSigned m)
    (hdenotes : payload.Denotes m) (hleast : ¬payload.IsLeastDouble)
    (hunique : ∀ n, payload.Denotes n → n = m) :
    CastsExactly common path payload (.converted ⟨.integer m hm, []⟩) where
  converts n fits := by
    constructor
    · intro h
      cases h
      exact ⟨hdenotes, hleast⟩
    · rintro ⟨h, -⟩
      obtain rfl := hunique n h
      rfl
  refuses hnone := absurd (hnone m hdenotes hm) hleast

/-- A node for integers without bounds casts every payload that is neither `null` nor a boolean to
the integer that the payload denotes, if a signed word holds it, and refuses it otherwise. But it
refuses the double of the least integer. -/
theorem integers_cast_exactly (hnode : graph.get? id = some (.typed common (.integer .free)))
    (hallowed : common.allowed = none) (hchecks : common.checks = []) (hmode : mode.strict = false)
    {payload : Json} (hnull : payload.isNull = false) (hbool : payload.isBool = false) (fuel : Nat)
    (path : Path) (resolver : Option Resolver) :
    CastsExactly common path payload
      (graph.convertAt (fuel + 1) id (some payload) path mode resolver).1 := by
  unfold convertAt
  rw [convertWithin_succ hnode, step_of_payload _ _ _ _ hnull]
  generalize graph.convertWithin mode fuel = convert
  cases hinteger : payload.isInteger with
  | true =>
      -- an integer is taken as it is
      obtain ⟨m, fits, rfl⟩ : ∃ m fits, payload = .num (.integer m fits) := by
        cases payload with
        | num x =>
            cases x with
            | integer m fits => exact ⟨m, fits, rfl⟩
            | double d => cases hinteger
        | _ => cases hinteger
      have hdenotes : (Json.num (.integer m fits)).Denotes m := .number (Number.whole?_integer fits)
      by_cases hm : FitsSigned m
      · have hpayload : Json.num (.integer m fits) = .ofInt m :=
          congrArg Json.num (dif_pos fits).symm
        rw [hpayload, checked_signed convert hallowed hchecks hm, ← hpayload]
        exact castsExactly_of_converted hm hdenotes nofun fun n h => h.unique hdenotes
      · rw [checked_unsigned convert fits hm]
        refine castsExactly_of_refused (.inr rfl) fun n h hn => absurd ?_ hm
        rwa [← h.unique hdenotes]
  | false =>
      have hcoercion : (Shape.integer .free : Shape NodeId).coercion? payload =
          some (.integerCast, Cast.toInteger? payload) := by
        unfold Shape.coercion?
        rw [hinteger, hbool]
        rfl
      cases hcast : Cast.toInteger? payload with
      | none =>
          rw [hcast] at hcoercion
          rw [checked_refused convert hmode hcoercion]
          refine castsExactly_of_refused (.inl rfl) fun n h hn => ?_
          by_contra hleast
          have hsome := (Cast.toInteger?_iff hinteger).2 ⟨n, h, hn, hleast, rfl⟩
          rw [hcast] at hsome
          cases hsome
      | some cast =>
          obtain ⟨n, hdenotes, hn, hleast, rfl⟩ := (Cast.toInteger?_iff hinteger).1 hcast
          rw [hcast] at hcoercion
          have htaken : (Shape.integer .free : Shape NodeId).coercion? (.ofInt n) = none := by
            rw [show Json.ofInt n = .num (.integer n hn.word) from congrArg Json.num (dif_pos _)]
            rfl
          rw [checked_cast convert hmode hcoercion htaken,
            checked_signed convert hallowed hchecks hn]
          exact castsExactly_of_converted hn hdenotes hleast fun m h => h.unique hdenotes

/-- A node for integers. -/
def counting : Graph where
  nodes := [.typed (.plain .builtIn) (.integer .free)]
  closed := by decide

/-- A text of the least integer of a signed word is cast to it, and the first integer after the
greatest one is refused. -/
theorem integers_cast_exactly_limits :
    let mode := (Options.ofEntity .request).mode
    let beyond := Json.num (.integer 9223372036854775808 (by decide))
    (counting.convertAt 1 0 (some (.str " -9223372036854775808\n")) .root mode none).1 =
        .converted ⟨.integer (-9223372036854775808) (by decide), []⟩ ∧
      ∃ key, (counting.convertAt 1 0 (some beyond) .root mode none).1 =
        .failed (.single ((Common.plain .builtIn).error .root key [])) := by
  intro mode beyond
  have hcasts : ∀ payload : Json, payload.isNull = false → payload.isBool = false →
      CastsExactly (.plain .builtIn) .root payload
        (counting.convertAt 1 0 (some payload) .root mode none).1 := fun payload hnull hbool =>
    integers_cast_exactly rfl rfl rfl rfl hnull hbool 0 .root none
  constructor
  · have hparts : " -9223372036854775808\n".toList =
        [' '] ++ ('-' :: "9223372036854775808".toList) ++ ['\n'] := by decide +kernel
    have hwrites : Numeral.Writes ('-' :: "9223372036854775808".toList) (-9223372036854775808) :=
      .minus ⟨by decide +kernel, List.all_eq_true.1 (by decide +kernel), by decide +kernel⟩
    exact ((hcasts (.str _) rfl rfl).converts _ _).2
      ⟨.text hparts (List.forall_mem_singleton.2 rfl) (List.forall_mem_singleton.2 rfl) hwrites,
        nofun⟩
  · obtain ⟨key, -, hrun⟩ := (hcasts beyond rfl rfl).refuses fun n hdenotes hn => by
      have hsame := hdenotes.unique (.number (Number.whole?_integer _))
      rw [hsame] at hn
      exact absurd hn (by decide)
    exact ⟨key, hrun⟩

/-- The double of the least integer of a signed word is refused, although the integer and its text
are not. -/
theorem least_double_is_refused :
    let mode := (Options.ofEntity .request).mode
    let least := Json.num (.double (.finite true (2 ^ 52) 1085))
    least.Denotes (-9223372036854775808) ∧ FitsSigned (-9223372036854775808) ∧
      (counting.convertAt 1 0 (some least) .root mode none).1 =
        .failed (.single ((Common.plain .builtIn).error .root .integerCast [])) := by
  intro mode least
  refine ⟨.number (by decide +kernel), by decide, ?_⟩
  have hnone : (Cast.toInteger? least).isNone = true := by decide +kernel
  have hcoercion : (Shape.integer .free : Shape NodeId).coercion? least =
      some (.integerCast, none) :=
    congrArg (fun cast => some (MessageKey.integerCast, cast)) (Option.isNone_iff_eq_none.1 hnone)
  have hnode : counting.get? 0 = some (.typed (.plain .builtIn) (.integer .free)) := rfl
  unfold convertAt
  rw [convertWithin_succ hnode, step_of_payload _ _ _ _ rfl, checked_refused _ rfl hcoercion]
  rfl

end Graph

end SchemaGraph
