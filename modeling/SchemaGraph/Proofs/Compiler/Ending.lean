import SchemaGraph.Proofs.Compiler.Frame
import SchemaGraph.Proofs.Compiler.Memory
import SchemaGraph.Proofs.Conversion.Bounded

set_option autoImplicit false

/-! # Compilations end

Nothing gets smaller when a reference is followed. But references lead to finitely many URLs, so
schemas stand at finitely many locations (`Territory.keys`), and a schema that starts to compile is
known from then on. In between, a chain of references passes no location twice, and neither does
the way to the access of a property. So the unknown locations, and those that the chain has not
passed, bound the depth of a compilation (`Compiling.value_lasts`).

Checking a schema ends too (`Model.check_ends`), so both end, with whatever documents a finite
number of URIs is answered (`Compiler.check_and_compile_end`).
-/

namespace SchemaGraph

/-! ## Locations of schemas -/

/-- The keys of an object, or the indexes of a list. -/
def Json.segments : Json → List String
  | .obj entries => entries.map Prod.fst
  | .arr items => (List.range items.length).map toString
  | _ => []

/-- All lists of some letters up to a length. -/
def words (letters : List String) : Nat → List (List String)
  | 0 => [[]]
  | length + 1 => [] :: letters.flatMap fun letter => (words letters length).map (letter :: ·)

theorem mem_words {letters : List String} {length : Nat} {word : List String}
    (hlength : word.length ≤ length) (hletters : ∀ letter ∈ word, letter ∈ letters) :
    word ∈ words letters length := by
  induction length generalizing word with
  | zero =>
      rw [List.eq_nil_of_length_eq_zero (Nat.le_zero.1 hlength)]
      exact List.mem_singleton_self _
  | succ length ih =>
      cases word with
      | nil => exact List.mem_cons_self
      | cons letter rest =>
          refine List.mem_cons_of_mem _ (List.mem_flatMap.2 ⟨letter, ?_, ?_⟩)
          · exact hletters letter List.mem_cons_self
          · refine List.mem_map.2 ⟨rest, ih (Nat.le_of_succ_le_succ hlength) ?_, rfl⟩
            exact fun other hother => hletters other (List.mem_cons_of_mem _ hother)

namespace Territory

variable {territory : Territory} {size : Nat} {written : Json} {path : Path} {url : String}

/-- The segments on the way from a location to a part of its value. -/
def segments (territory : Territory) : List String :=
  territory.values.flatMap Json.segments ++ territory.locations.flatMap Path.parts

/-- A value of the territory stands at a location from which it does not reach too far. -/
structure Fits (territory : Territory) (size : Nat) (written : Json) (path : Path) : Prop where
  value : written ∈ territory.values
  home : ∃ url ∈ territory.urls, territory.meets url ∧ path.base = (Path.ofUri url).base
  segments : ∀ part ∈ path.parts, part ∈ territory.segments
  reach : path.parts.length + written.depth ≤ size

/-- No value reaches too far, wherever a URL leads to it. -/
structure IsRoomy (territory : Territory) (size : Nat) : Prop where
  value : ∀ value ∈ territory.values, value.depth ≤ size
  target : ∀ url ∈ territory.urls, ∀ value ∈ territory.values,
    (Path.ofUri url).parts.length + value.depth ≤ size

theorem exists_isRoomy (territory : Territory) : ∃ size, territory.IsRoomy size := by
  obtain ⟨depth, hdepth⟩ := exists_bound territory.values Json.depth
  obtain ⟨length, hlength⟩ := exists_bound territory.urls fun url => (Path.ofUri url).parts.length
  refine ⟨length + depth, ⟨fun value hvalue => ?_, fun url hurl value hvalue => ?_⟩⟩
  · exact Nat.le_trans (hdepth value hvalue) (Nat.le_add_left _ _)
  · exact Nat.add_le_add (hlength url hurl) (hdepth value hvalue)

theorem IsRoomy.fits (h : territory.IsRoomy size) (hurl : url ∈ territory.urls)
    (hmeets : territory.meets url) (hvalue : written ∈ territory.values) :
    territory.Fits size written (Path.ofUri url) where
  value := hvalue
  home := ⟨url, hurl, hmeets, rfl⟩
  segments _ hpart :=
    List.mem_append_right _ (List.mem_flatMap.2 ⟨_, mem_locations hurl, hpart⟩)
  reach := h.target url hurl written hvalue

/-- A part that stands under a segment fits there. -/
theorem Fits.child (h : territory.Fits size written path) {part : Json} {segment : String}
    (hpart : written.Has part) (hsegment : segment ∈ written.segments) :
    territory.Fits size part (path.child segment) where
  value := territory.parts h.value hpart
  home := h.home
  segments other hother := by
    rcases List.mem_append.1 hother with hother | hother
    · exact h.segments other hother
    · rw [List.mem_singleton.1 hother]
      exact List.mem_append_left _ (List.mem_flatMap.2 ⟨written, h.value, hsegment⟩)
  reach := by
    have hreach := h.reach
    have hdepth := hpart.depth_lt
    show (path.parts ++ [segment]).length + part.depth ≤ size
    rw [List.length_append, List.length_singleton]
    omega

theorem mem_segments_of_entry {entries : List (String × Json)} {name : String} {schema : Json}
    (h : (name, schema) ∈ entries) : name ∈ (Json.obj entries).segments :=
  List.mem_map.2 ⟨_, h, rfl⟩

theorem mem_segments_of_item {items : List Json} {index : Nat} {schema : Json}
    (h : items[index]? = some schema) : toString index ∈ (Json.arr items).segments :=
  List.mem_map.2 ⟨index, List.mem_range.2 (List.getElem?_eq_some_iff.1 h).1, rfl⟩

theorem fits_places (territory : Territory) (size : Nat) :
    Compiling.Places (territory.Fits size) where
  entry h hentry := h.child (.inr ⟨_, hentry⟩) (mem_segments_of_entry hentry)
  item h hitem := h.child (.inl (List.mem_of_getElem? hitem)) (mem_segments_of_item hitem)

/-- So does a schema beside another one, if the territory holds their document. -/
theorem Fits.beside (h : territory.Fits size written path) (hroomy : territory.IsRoomy size)
    {c : Compiler} (hc : territory.Holds c.resolver) {name : String} {schema : Json}
    (hbeside : (name, schema) ∈ Compiling.extensions c path) :
    territory.Fits size schema (path.parent.child name) := by
  unfold Compiling.extensions at hbeside
  split at hbeside
  · cases hbeside
  · have hmem := (List.mem_filter.1 hbeside).1
    cases hstored : Compiling.stored? c path.parent with
    | none =>
        rw [hstored] at hmem
        cases hmem
    | some whole =>
        rw [hstored] at hmem
        obtain ⟨document, hdocument, hwalk⟩ := Option.bind_eq_some_iff.1 hstored
        have hvalue : document ∈ territory.values := by
          obtain ⟨url, -, hmeets, hbase⟩ := h.home
          have hfind : Entries.find? (Uri.defrag path.base).1 c.resolver.store = some document :=
            hdocument
          rw [hbase, show (Path.ofUri url).base = (Uri.defrag url).1 from rfl,
            Uri.defrag_document] at hfind
          refine (hc.documents url document hmeets ?_).2
          unfold Resolver.documentAt
          rw [hfind]
        have hwhole : territory.Fits size whole path.parent := by
          refine ⟨Json.holds_of_walk territory.parts hvalue hwalk, h.home, fun part hpart => ?_, ?_⟩
          · exact h.segments part ((List.dropLast_sublist _).subset hpart)
          · exact Nat.le_trans (Json.depth_of_walk hwalk) (hroomy.value document hvalue)
        cases whole with
        | obj entries => exact (fits_places territory size).entry hwhole hmem
        | _ => cases hmem

/-! ## What is left to compile -/

/-- The keys under which schemas of the territory are known. -/
def keys (territory : Territory) (size : Nat) : List CompileKey :=
  (territory.locations.map Path.base).flatMap fun base =>
    (words territory.segments size).flatMap fun parts =>
      [⟨⟨base, parts⟩, true⟩, ⟨⟨base, parts⟩, false⟩]

theorem Fits.mem_keys (h : territory.Fits size written path) (flag : Bool) :
    (⟨path, flag⟩ : CompileKey) ∈ territory.keys size := by
  obtain ⟨url, hurl, -, hbase⟩ := h.home
  have hlisted : path.base ∈ territory.locations.map Path.base :=
    List.mem_map.2 ⟨_, mem_locations hurl, hbase.symm⟩
  refine List.mem_flatMap.2 ⟨path.base, hlisted, List.mem_flatMap.2 ⟨path.parts, ?_, ?_⟩⟩
  · exact mem_words (Nat.le_trans (Nat.le_add_right _ _) h.reach) h.segments
  · cases flag
    · exact List.mem_cons_of_mem _ List.mem_cons_self
    · exact List.mem_cons_self

/-- How many keys nothing is known of. -/
def unknown (territory : Territory) (size : Nat) (memory : CompileMemory) : Nat :=
  (territory.keys size).countP fun key => (memory.find? key).isNone

theorem isNone_of_set {memory : CompileMemory} {key other : CompileKey} {state : Compiled}
    (h : ((memory.set key state).find? other).isNone = true) :
    (memory.find? other).isNone = true := by
  by_cases heq : other = key
  · subst heq
    rw [CompileMemory.find?_set_self] at h
    cases h
  · rwa [CompileMemory.find?_set_of_ne heq] at h

theorem unknown_set_le (memory : CompileMemory) (key : CompileKey) (state : Compiled) :
    territory.unknown size (memory.set key state) ≤ territory.unknown size memory :=
  List.countP_mono_left fun _ _ => isNone_of_set

theorem unknown_set_lt {memory : CompileMemory} {key : CompileKey} (state : Compiled)
    (hkey : key ∈ territory.keys size) (hnone : memory.find? key = none) :
    territory.unknown size (memory.set key state) < territory.unknown size memory := by
  refine countP_lt (fun _ _ => isNone_of_set) hkey ?_ ?_
  · rw [CompileMemory.find?_set_self]
    rfl
  · rw [hnone]
    rfl

end Territory

namespace Compiling

variable {α β ι : Type} {territory : Territory} {size n m fuel : Nat} {c : Compiler}
  {inv : Compiler → Prop}

/-! ## Runs with enough fuel -/

/-- From here fuel does not run out, and the invariant holds in the end. -/
structure Lasts (inv : Compiler → Prop) (part : Compiling α) (c : Compiler) : Prop where
  holds : inv (part c).2
  fueled : (part c).1 ≠ .error .outOfFuel

namespace Lasts

theorem pure (h : inv c) (a : α) : Lasts inv (Pure.pure a) c := ⟨h, nofun⟩

theorem fail (h : inv c) {failure : CompileFailure} (hfailure : failure ≠ .outOfFuel) :
    Lasts inv (Compiling.fail failure : Compiling α) c :=
  ⟨h, fun heq => hfailure (Except.error.inj heq)⟩

theorem failWith (h : inv c) (path : Path) (key : MessageKey) :
    Lasts inv (Compiling.failWith path key : Compiling α) c := ⟨h, nofun⟩

theorem bind {part : Compiling α} {f : α → Compiling β} (h : Lasts inv part c)
    (hf : ∀ a d, part c = (.ok a, d) → inv d → Lasts inv (f a) d) : Lasts inv (part >>= f) c := by
  obtain ⟨hholds, hfueled⟩ := h
  rcases hrun : part c with ⟨failure | a, d⟩
  · rw [hrun] at hholds hfueled
    refine ⟨?_, ?_⟩
    · rw [run_bind, hrun]
      exact hholds
    · rw [run_bind, hrun]
      exact fun heq => hfueled (congrArg Except.error (Except.error.inj heq))
  · rw [hrun] at hholds
    obtain ⟨hholds, hfueled⟩ := hf a d hrun hholds
    refine ⟨?_, ?_⟩
    · rw [run_bind, hrun]
      exact hholds
    · rw [run_bind, hrun]
      exact hfueled

/-- A failure that is kept as a value is not for lack of fuel. -/
theorem bind_outcome {part : Compiling α} {f : Except CompileFailure α → Compiling β}
    (h : Lasts inv part c)
    (hf : ∀ result d, result ≠ .error .outOfFuel → inv d → Lasts inv (f result) d) :
    Lasts inv (outcome part >>= f) c :=
  bind ⟨h.holds, nofun⟩ fun result d hrun hd => by
    cases hrun
    exact hf _ _ h.fueled hd

theorem mono {inv' : Compiler → Prop} {part : Compiling α} (h : Lasts inv part c)
    (himp : ∀ d, inv d → inv' d) : Lasts inv' part c :=
  ⟨himp _ h.holds, h.fueled⟩

end Lasts

/-- The course of runs with enough fuel. -/
def lasting (inv : Compiler → Prop) : Course :=
  fun c failure d => inv c → inv d ∧ failure ≠ some .outOfFuel

theorem takes_lasting {part : Compiling α} :
    Takes (lasting inv) part ↔ ∀ c, inv c → Lasts inv part c := by
  have hfailure : ∀ result : Except CompileFailure α,
      failure? result ≠ some .outOfFuel ↔ result ≠ .error .outOfFuel := by
    intro result
    cases result with
    | error failure => exact not_congr ⟨fun h => by cases h; rfl, fun h => by cases h; rfl⟩
    | ok a => exact ⟨fun _ => nofun, fun _ => nofun⟩
  constructor
  · exact fun h c hc => ⟨(h c hc).1, (hfailure _).1 (h c hc).2⟩
  · exact fun h c hc => ⟨(h c hc).holds, (hfailure _).2 (h c hc).fueled⟩

/-! ## What compiling a schema needs -/

/-- The compiler knows nothing outside of the territory, and only so many locations are left: not
known yet, and not passed by the chain of references. -/
structure Within (territory : Territory) (size n m : Nat) (c : Compiler) : Prop where
  resolver : territory.Holds c.resolver
  unknown : territory.unknown size c.memory ≤ n
  unpassed : unpassed territory.locations c.chain ≤ m

theorem Within.set (h : Within territory size n m c) (key : CompileKey) (state : Compiled) :
    Within territory size n m { c with memory := c.memory.set key state } :=
  ⟨h.resolver, Nat.le_trans (Territory.unknown_set_le _ _ _) h.unknown, h.unpassed⟩

theorem remember_lasts (h : Within territory size n m c) (key : CompileKey) (state : Compiled) :
    Lasts (Within territory size n m) (remember fun memory => memory.set key state) c :=
  ⟨h.set key state, nofun⟩

/-- Resolving a reference leads to a value of the territory, or nowhere. -/
theorem bind_resolve_lasts (hc : Within territory size n m c) {reference : String}
    (hreference : territory.meets reference)
    {f : Except ResolveError (String × Json) → Compiling β}
    (hfailed : ∀ failure d, Within territory size n m d →
      Lasts (Within territory size n m) (f (.error failure)) d)
    (hfound : ∀ url target d, url ∈ territory.urls → territory.meets url →
      target ∈ territory.values → Within territory size n m d →
      Lasts (Within territory size n m) (f (.ok (url, target))) d) :
    Lasts (Within territory size n m) (resolve reference >>= f) c := by
  obtain ⟨hholds, hresolved⟩ := hc.resolver.resolve hreference
  have hd : Within territory size n m { c with resolver := (c.resolver.resolve reference).2 } :=
    ⟨hholds, hc.unknown, hc.unpassed⟩
  refine Lasts.bind ⟨hd, nofun⟩ fun resolved d hrun hd => ?_
  rw [run_resolve] at hrun
  obtain ⟨hresult, rfl⟩ := Prod.mk.inj hrun
  rw [← Except.ok.inj hresult]
  cases hanswer : (c.resolver.resolve reference).1 with
  | error failure => exact hfailed failure _ hd
  | ok found =>
      obtain ⟨url, target⟩ := found
      obtain ⟨hurl, hmeets, htarget⟩ := hresolved url target hanswer
      exact hfound url target _ hurl hmeets htarget hd

theorem inScope_lasts {url : String} {part : Compiling α}
    (h : Lasts (Within territory size n m) part
      { c with resolver := c.resolver.pushScope url }) :
    Lasts (Within territory size n m) (inScope url part) c :=
  ⟨⟨h.holds.resolver.leaveScope, h.holds.unknown, h.holds.unpassed⟩, h.fueled⟩

/-- The chain of references is restored. -/
theorem withChain_lasts {n' m' : Nat} {chain : List Path} {part : Compiling α}
    (h : Lasts (Within territory size n' m') part { c with chain }) (hn : n' ≤ n)
    (hm : unpassed territory.locations c.chain ≤ m) :
    Lasts (Within territory size n m) (withChain chain part) c :=
  ⟨⟨h.holds.resolver, Nat.le_trans h.holds.unknown hn, hm⟩, h.fueled⟩

/-- The URLs that were not passed bound the way to the end of some references. -/
theorem atEnd_lasts {part : Json → Compiling α}
    (hpart : ∀ schema ∈ territory.values, ∀ c, Within territory size n m c →
      Lasts (Within territory size n m) (part schema) c) :
    ∀ {fuel : Nat} {seen : List String} {schema : Json} {c : Compiler},
      Within territory size n m c → schema ∈ territory.values →
      unpassed territory.urls seen < fuel →
      Lasts (Within territory size n m) (atEnd part fuel seen schema) c
  | fuel + 1, seen, schema, c, hc, hschema, hfuel => by
      unfold atEnd
      cases hreference : (schema.get? "$ref").bind Json.asStr? with
      | none => exact hpart schema hschema c hc
      | some reference =>
          refine bind_resolve_lasts hc (territory.references hschema hreference)
            (fun _ => hpart schema hschema) fun url target d hurl hmeets htarget hd => ?_
          dsimp only
          cases hseen : seen.contains url with
          | true => exact hpart schema hschema d hd
          | false =>
              have hfewer := unpassed_cons_lt hurl hseen
              refine inScope_lasts (atEnd_lasts hpart ?_ htarget (by omega))
              exact ⟨hd.resolver.pushScope hmeets, hd.unknown, hd.unpassed⟩

theorem access_lasts (hc : Within territory size n m c) {schema : Json}
    (hschema : schema ∈ territory.values) (hfuel : territory.urls.length < fuel) :
    Lasts (Within territory size n m) (access fuel schema) c := by
  refine atEnd_lasts (fun _ _ c hc => Lasts.pure hc _) hc hschema ?_
  exact Nat.lt_of_le_of_lt (unpassed_le _ _) hfuel

theorem lasting_laws (hroomy : territory.IsRoomy size) (hfuel : territory.urls.length < fuel) :
    (lasting (Within territory size n m)).NodeLaws (territory.Fits size) fuel where
  toPlaces := territory.fits_places size
  done _ hc := ⟨hc, nofun⟩
  refused _ _ hc := ⟨hc, nofun⟩
  next hfirst hsecond hc := hsecond (hfirst hc).1
  caught h hc := ⟨(h hc).1, nofun⟩
  access hplace := takes_lasting.2 fun _ hc => access_lasts hc hplace.value hfuel
  extension {c entries path name schema} hplace hbeside := by
    by_cases hc : Within territory size n m c
    · exact .inl (hplace.beside hroomy hc.resolver hbeside)
    · exact .inr fun _ _ h => absurd h hc

/-! ## Schemas -/

/-- How deep a compilation nests at most with so much left. -/
def extent (territory : Territory) (n m : Nat) : Nat :=
  n * (territory.locations.length + 1) + m + territory.locations.length + 1

/-- Schemas that fit compile with enough fuel. -/
def ValuesLast (territory : Territory) (size fuel : Nat) : Prop :=
  ∀ {n m}, extent territory n m < fuel → ∀ {written path}, territory.Fits size written path →
    ∀ referencing flag c, Within territory size n m c →
      Lasts (Within territory size n m) (value fuel written path referencing flag) c

theorem reuse_lasts {known : Option Compiled} {referencing : Path} {otherwise : Compiling NodeId}
    (hc : inv c) (h : known = none → Lasts inv otherwise c) :
    Lasts inv (reuse known referencing otherwise) c := by
  unfold reuse
  rcases known with _ | _ | _ | _
  · exact h rfl
  · exact .pure hc _
  · exact .pure hc _
  · exact .failWith hc _ _

theorem follow_lasts (ih : ValuesLast territory size fuel) (hroomy : territory.IsRoomy size)
    (hextent : extent territory n m < fuel + 1) (hc : Within territory size n m c)
    {url : String} {target : Json} (hurl : url ∈ territory.urls)
    (hmeets : territory.meets url) (htarget : target ∈ territory.values)
    (hnew : c.chain.contains (Path.ofUri url) = false) (referencing : Path) (flag : Bool) :
    Lasts (Within territory size n m)
      (follow (value fuel) url target c.chain referencing ⟨Path.ofUri url, flag⟩) c := by
  have hless := unpassed_cons_lt (Territory.mem_locations hurl) hnew
  have hunpassed := hc.unpassed
  -- the chain passes one more location, and nothing new is known
  obtain ⟨m, rfl⟩ : ∃ m', m = m' + 1 := ⟨m - 1, by omega⟩
  have hinner : Lasts (Within territory size n m)
      (value fuel target (Path.ofUri url) (Path.ofUri url) flag)
      { c with resolver := c.resolver.pushScope url, chain := Path.ofUri url :: c.chain } := by
    refine ih ?_ (hroomy.fits hurl hmeets htarget) _ _ _ ?_
    · unfold extent at hextent ⊢
      omega
    · exact ⟨hc.resolver.pushScope hmeets, hc.unknown,
        Nat.le_of_lt_succ (Nat.lt_of_lt_of_le hless hunpassed)⟩
  unfold follow
  refine Lasts.bind_outcome (inScope_lasts (withChain_lasts hinner (Nat.le_refl n) hunpassed))
    fun result d hresult hd => ?_
  rcases result with (errors | _ | _) | node
  · exact Lasts.bind ⟨hd, nofun⟩ fun _ d _ hd => .fail hd nofun
  · exact (remember_lasts hd _ .poisoned).bind fun _ d _ hd => .failWith hd _ _
  · exact absurd rfl hresult
  · exact .pure hd _

theorem target_lasts (ih : ValuesLast territory size fuel) (hroomy : territory.IsRoomy size)
    (hextent : extent territory n m < fuel + 1) (hc : Within territory size n m c)
    {reference : String} (hreference : territory.meets reference)
    (referencing : Path) (flag : Bool) :
    Lasts (Within territory size n m) (target (value fuel) reference referencing flag) c := by
  unfold target
  refine bind_resolve_lasts hc hreference (fun _ d hd => .failWith hd _ _)
    fun url target d hurl hmeets htarget hd => ?_
  dsimp only
  refine Lasts.bind ⟨hd, nofun⟩ fun e d hrun hd => ?_
  cases hrun
  cases hnew : d.chain.contains (Path.ofUri url) with
  | true => exact .fail hd nofun
  | false =>
      rw [if_neg Bool.false_ne_true]
      refine Lasts.bind ⟨hd, nofun⟩ fun known e hrun he => ?_
      cases hrun
      refine reuse_lasts hd fun _ => ?_
      exact follow_lasts ih hroomy hextent hd hurl hmeets htarget hnew referencing flag

theorem referenceOnly_lasts (ih : ValuesLast territory size fuel) (hroomy : territory.IsRoomy size)
    (hextent : extent territory n m < fuel + 1) (hc : Within territory size n m c)
    {entries : List (String × Json)} (hentries : Json.obj entries ∈ territory.values)
    {reference : Json} (hreference : Entries.find? "$ref" entries = some reference)
    (key : CompileKey) :
    Lasts (Within territory size n m) (referenceOnly (value fuel) reference key) c := by
  have hreferenced :
      Lasts (Within territory size n m) (referenced (value fuel) reference key) c := by
    cases reference with
    | str text =>
        refine target_lasts ih hroomy hextent hc (territory.references hentries ?_) _ _
        show (Entries.find? "$ref" entries).bind Json.asStr? = some text
        rw [hreference]
        rfl
    | _ => exact Lasts.bind ⟨hc, nofun⟩ fun _ _ hrun hd => .fail hd nofun
  unfold referenceOnly
  refine Lasts.bind_outcome hreferenced fun result d hresult hd => ?_
  cases result with
  | ok node => exact (remember_lasts hd key (.defined node)).bind fun _ _ _ hd => .pure hd _
  | error failure =>
      refine (remember_lasts hd key .poisoned).bind fun _ _ _ hd => .fail hd ?_
      exact fun heq => hresult (congrArg Except.error heq)

/-- A schema is known as soon as it starts to compile, so fewer are left for its parts. -/
theorem schema_lasts (ih : ValuesLast territory size fuel) (hroomy : territory.IsRoomy size)
    (hextent : extent territory n m < fuel + 1) (hc : Within territory size n m c)
    {entries : List (String × Json)} {path : Path}
    (hplace : territory.Fits size (.obj entries) path) (flag : Bool)
    (hnone : c.memory.find? ⟨path, flag⟩ = none) :
    Lasts (Within territory size n m) (schema (value fuel) fuel entries ⟨path, flag⟩) c := by
  have hless := Territory.unknown_set_lt (.reserved c.draft.next) (hplace.mem_keys flag) hnone
  have hunknown := hc.unknown
  -- one key less is unknown, so the chains of the parts may pass all locations again
  obtain ⟨n, rfl⟩ : ∃ n', n = n' + 1 := ⟨n - 1, by omega⟩
  have hsmaller : extent territory n territory.locations.length < fuel := by
    have hproduct : (n + 1) * (territory.locations.length + 1) =
        n * (territory.locations.length + 1) + (territory.locations.length + 1) := Nat.succ_mul _ _
    unfold extent at hextent ⊢
    omega
  have hurls : territory.urls.length < fuel := by
    have hlength : territory.locations.length = territory.urls.length := List.length_map _
    unfold extent at hsmaller
    omega
  have hparts : TakesParts (lasting (Within territory size n territory.locations.length))
      (territory.Fits size) (value fuel) :=
    fun written path flag hwritten => takes_lasting.2 (ih hsmaller hwritten path flag)
  -- its parts compile where that is so, and the assembly of a node adds no calls
  have hnode := takes_lasting.1 ((lasting_laws hroomy hurls).node hparts flag hplace)
  unfold schema
  refine Lasts.bind ⟨hc, nofun⟩ fun compiler d hrun _ => ?_
  cases hrun
  have hreserved : Within territory size n m { c with
      draft := c.draft.reserve, memory := c.memory.reserve ⟨path, flag⟩ c.draft.next } :=
    ⟨hc.resolver, by
      show territory.unknown size (c.memory.set ⟨path, flag⟩ (.reserved c.draft.next)) ≤ n
      omega, hc.unpassed⟩
  -- the rest keeps the smaller count, which is more than is asked for
  refine Lasts.mono (show Lasts (Within territory size n m) _ c from ?_) fun d hd =>
    ⟨hd.resolver, Nat.le_succ_of_le hd.unknown, hd.unpassed⟩
  refine Lasts.bind ⟨hreserved, nofun⟩ fun _ d hrun hd => ?_
  refine Lasts.bind_outcome (withChain_lasts (hnode _ ?_) (Nat.le_refl n) hd.unpassed)
    fun result d hresult hd => ?_
  · exact ⟨hd.resolver, hd.unknown, unpassed_le _ _⟩
  cases result with
  | error failure =>
      refine (remember_lasts hd _ .poisoned).bind fun _ _ _ hd => .fail hd ?_
      exact fun heq => hresult (congrArg Except.error heq)
  | ok node =>
      refine Lasts.bind ⟨hd, nofun⟩ fun compiler e hrun he => ?_
      cases hrun
      cases d.draft.define c.draft.next node with
      | error e => exact (remember_lasts hd _ .poisoned).bind fun _ _ _ hd => .fail hd nofun
      | ok draft =>
          have hdefined := hd.set ⟨path, flag⟩ (.defined c.draft.next)
          refine Lasts.bind ⟨?_, nofun⟩ fun _ _ _ hd => .pure hd _
          exact ⟨hdefined.resolver, hdefined.unknown, hdefined.unpassed⟩

/-- With enough fuel for what is left, every schema compiles or fails with errors. -/
theorem value_lasts (hroomy : territory.IsRoomy size) (fuel : Nat) :
    ValuesLast territory size fuel := by
  induction fuel with
  | zero => exact fun h => absurd h (Nat.not_lt_zero _)
  | succ fuel ih =>
      intro n m hextent written path hplace referencing flag c hc
      unfold value
      refine Lasts.bind ⟨hc, nofun⟩ fun known d hrun _ => ?_
      rw [run_known] at hrun
      obtain ⟨hknown, rfl⟩ := Prod.mk.inj hrun
      refine reuse_lasts hc fun hnone => ?_
      cases written with
      | obj entries =>
          dsimp only
          cases hreference : Entries.find? "$ref" entries with
          | some reference =>
              exact referenceOnly_lasts ih hroomy hextent hc hplace.value hreference _
          | none =>
              refine schema_lasts ih hroomy hextent hc hplace flag ?_
              rw [Except.ok.inj hknown, hnone]
      | _ => exact .failWith hc _ _

/-! ## Calls -/

theorem bind_pointer_lasts (hc : Within territory size n m c) {reference : String}
    (hreference : territory.meets reference)
    {f : String × Json → Compiling β}
    (hfound : ∀ url target d, url ∈ territory.urls → territory.meets url →
      target ∈ territory.values → Within territory size n m d →
      Lasts (Within territory size n m) (f (url, target)) d) :
    Lasts (Within territory size n m) (pointer reference >>= f) c := by
  unfold pointer
  rw [bind_assoc]
  refine bind_resolve_lasts hc hreference (fun failure d hd => ?_)
    fun url target d hurl hmeets htarget hd => ?_
  · refine Lasts.bind (Lasts.bind ⟨hd, nofun⟩ fun _ d _ hd => .failWith hd _ _)
      fun found e hrun _ => ?_
    cases hrun
  · dsimp only
    rw [pure_bind]
    exact hfound url target d hurl hmeets htarget hd

/-- Checking takes as much fuel as the model of a schema needs. -/
theorem check_lasts (hc : Within territory size n m c) {reference : String}
    (hreference : territory.meets reference)
    (hmodel : ∀ messages mode {r payload}, territory.Holds r → payload ∈ territory.values → ∀ path,
      ((Model.graph messages).convertAt fuel Model.entry (some payload) path mode (some r)).1 ≠
          .outOfFuel ∧
        ∀ s, ((Model.graph messages).convertAt fuel Model.entry (some payload) path mode
          (some r)).2 = some s → territory.Holds s) :
    Lasts (Within territory size n m) (check fuel reference) c := by
  unfold check
  refine bind_pointer_lasts hc hreference fun url target d _ hmeets htarget hd => ?_
  dsimp only
  refine Lasts.bind ⟨hd, nofun⟩ fun compiler d hrun hd => ?_
  refine inScope_lasts ?_
  have hentered := hd.resolver.pushScope hmeets
  obtain ⟨hfueled, hholds⟩ := hmodel compiler.messages (Options.ofEntity .specification).mode
    hentered htarget (Path.ofUri url)
  refine Lasts.bind ⟨⟨hentered, hd.unknown, hd.unpassed⟩, nofun⟩ fun compiler' e hrun' _ => ?_
  cases hrun'
  dsimp only
  generalize (Model.graph compiler.messages).convertAt fuel Model.entry (some target)
    (Path.ofUri url) (Options.ofEntity .specification).mode (some (d.resolver.pushScope url)) = run
    at hfueled hholds ⊢
  obtain ⟨outcome, after⟩ := run
  have hafter : territory.Holds (after.getD (d.resolver.pushScope url)) := by
    cases after with
    | none => exact hentered
    | some resolver => exact hholds resolver rfl
  refine Lasts.bind ⟨⟨hafter, hd.unknown, hd.unpassed⟩, nofun⟩ fun _ e _ he => ?_
  cases outcome with
  | failed errors => exact .fail he nofun
  | outOfFuel => exact absurd rfl hfueled
  | _ => exact .pure he _

theorem compilePointer_lasts (hroomy : territory.IsRoomy size)
    (hc : Within territory size n territory.locations.length c)
    (hextent : extent territory n territory.locations.length < fuel) {reference : String}
    (hreference : territory.meets reference) :
    Lasts (Within territory size n territory.locations.length) (compilePointer fuel reference)
      c := by
  unfold compilePointer
  refine bind_pointer_lasts hc hreference fun url target d hurl hmeets htarget hd => ?_
  dsimp only
  refine Lasts.bind ⟨hd, nofun⟩ fun compiler e hrun hd => ?_
  have hvalue := value_lasts hroomy fuel hextent (hroomy.fits hurl hmeets htarget) (Path.ofUri url)
    compiler.config.allowPolymorphism
  refine Lasts.bind_outcome (inScope_lasts (withChain_lasts (hvalue _ ?_) (Nat.le_refl n)
    (unpassed_le _ _))) fun result d hresult hd => ?_
  · exact ⟨hd.resolver.pushScope hmeets, hd.unknown, unpassed_le _ _⟩
  · rcases result with (errors | _ | _) | node
    · exact .fail hd nofun
    · exact (remember_lasts hd _ .poisoned).bind fun _ d _ hd => .failWith hd _ _
    · exact absurd rfl hresult
    · exact .pure hd _

/-- Taking back what a failed compilation left needs no fuel. -/
theorem undoOnFailure_lasts {part : Compiling NodeId} (hc : inv c) (h : Lasts inv part c)
    (hundone : ∀ {d draft memory}, inv d → inv { d with draft, memory }) :
    Lasts inv (undoOnFailure part) c := by
  unfold undoOnFailure
  refine Lasts.bind ⟨hc, nofun⟩ fun compiler d hrun _ => ?_
  cases hrun
  refine Lasts.bind_outcome h fun result d hresult hd => ?_
  cases result with
  | ok node => exact .pure hd _
  | error failure =>
      refine Lasts.bind ⟨hundone hd, nofun⟩ fun _ _ _ hd => .fail hd ?_
      exact fun heq => hresult (congrArg Except.error heq)

/-- So much fuel is enough for whatever is checked or compiled within a territory. -/
structure IsAmple (territory : Territory) (fuel : Nat) : Prop where
  model : ∀ messages mode {r payload}, territory.Holds r → payload ∈ territory.values → ∀ path,
    ((Model.graph messages).convertAt fuel Model.entry (some payload) path mode (some r)).1 ≠
        .outOfFuel ∧
      ∀ s, ((Model.graph messages).convertAt fuel Model.entry (some payload) path mode
        (some r)).2 = some s → territory.Holds s
  schemas : ∃ size, territory.IsRoomy size ∧
    extent territory (territory.keys size).length territory.locations.length < fuel

theorem exists_isAmple (territory : Territory) :
    ∃ enough, ∀ fuel, enough ≤ fuel → IsAmple territory fuel := by
  obtain ⟨size, hroomy⟩ := territory.exists_isRoomy
  obtain ⟨enough, hmodel⟩ := Model.check_ends territory
  let extent := extent territory (territory.keys size).length territory.locations.length
  refine ⟨max enough (extent + 1), fun fuel hfuel => ⟨?_, size, hroomy, ?_⟩⟩
  · exact hmodel fuel (Nat.le_trans (Nat.le_max_left _ _) hfuel)
  · exact Nat.lt_of_lt_of_le (Nat.lt_succ_self _) (Nat.le_trans (Nat.le_max_right _ _) hfuel)

theorem within_of_holds (h : territory.Holds c.resolver) (size : Nat) :
    Within territory size (territory.keys size).length territory.locations.length c :=
  ⟨h, List.countP_le_length, unpassed_le _ _⟩

/-- A compilation that has enough fuel stays in its territory. -/
theorem compile_lasts (hfuel : IsAmple territory fuel) (hc : territory.Holds c.resolver)
    {pointer : String} (hpointer : territory.meets pointer) :
    Lasts (fun d => territory.Holds d.resolver) (fun c => c.compile fuel pointer) c := by
  obtain ⟨size, hroomy, hextent⟩ := hfuel.schemas
  have hasked : Lasts (fun d => territory.Holds d.resolver) (checkIfAsked fuel pointer) c := by
    refine Lasts.bind ⟨hc, nofun⟩ fun compiler d hrun _ => ?_
    cases hrun
    split
    · exact (check_lasts (within_of_holds hc size) hpointer hfuel.model).mono fun _ => (·.resolver)
    · exact .pure hc _
  show Lasts _ (checkIfAsked fuel pointer >>= fun _ =>
    undoOnFailure (compilePointer fuel pointer)) c
  refine hasked.bind fun _ d _ hd => undoOnFailure_lasts hd ?_ fun hd => hd
  exact (compilePointer_lasts hroomy (within_of_holds hd size) hextent hpointer).mono
    fun _ => (·.resolver)

end Compiling

namespace Compiler

open Compiling

/-- Checking and compiling end, whatever the documents are and however they refer to each other, as
long as retrievers answer for finitely many URIs: with enough fuel, it does not run out. -/
theorem check_and_compile_end (c : Compiler) (pointer : String) (uris : List String)
    (h : c.resolver.AnswersOnly uris) :
    ∃ enough, ∀ fuel, enough ≤ fuel → (c.check fuel pointer).1 ≠ .error .outOfFuel ∧
      (c.compile fuel pointer).1 ≠ .error .outOfFuel := by
  obtain ⟨territory, hholds, hpointers⟩ := c.resolver.exists_territory h [pointer]
  obtain ⟨enough, hample⟩ := exists_isAmple territory
  refine ⟨enough, fun fuel hfuel => ?_⟩
  have hpointer := hpointers pointer List.mem_cons_self
  exact ⟨(check_lasts (within_of_holds hholds 0) hpointer (hample fuel hfuel).model).fueled,
    (compile_lasts (hample fuel hfuel) hholds hpointer).fueled⟩

/-- Two documents that refer to each other and to themselves. -/
def neighbours (uri : String) : Except ResolveError Json :=
  if uri = "http://a.test/one" then
    .ok (.obj [("$ref", .str "http://a.test/two#/S"),
      ("S", .obj [("allOf", .arr [.obj [("$ref", .str "#")], .obj [("$ref", .str "two")]])])])
  else if uri = "http://a.test/two" then
    .ok (.obj [("S", .obj [("items", .obj [("$ref", .str "one#/S")])])])
  else .error (.unsupportedScheme "" uri)

theorem check_and_compile_end_neighbours :
    let c := withResolver (.ofConfig [("http", neighbours)] (.obj []) .default) .default
    let uris := ["http://a.test/one", "http://a.test/two"]
    c.resolver.AnswersOnly uris ∧ ∃ enough, ∀ fuel, enough ≤ fuel →
      (c.check fuel "http://a.test/one").1 ≠ .error .outOfFuel ∧
        (c.compile fuel "http://a.test/one").1 ≠ .error .outOfFuel := by
  intro c uris
  have h : c.resolver.AnswersOnly uris := by
    intro scheme retriever hretriever uri document hdocument
    have hsame : retriever = neighbours := by
      have hfind : Entries.find? scheme [("http", neighbours)] = some retriever := hretriever
      unfold Entries.find? at hfind
      split at hfind
      · exact (Option.some.inj hfind).symm
      · cases hfind
    subst hsame
    unfold neighbours at hdocument
    split at hdocument
    · rename_i heq
      exact heq ▸ List.mem_cons_self
    · split at hdocument
      · rename_i heq
        exact heq ▸ List.mem_cons_of_mem _ List.mem_cons_self
      · cases hdocument
  exact ⟨h, check_and_compile_end c "http://a.test/one" uris h⟩

end Compiler

end SchemaGraph
