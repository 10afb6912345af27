import SchemaGraph.Proofs.Compiler.Combinators
import SchemaGraph.Proofs.Compiler.Flags

set_option autoImplicit false

/-! # Where schemas that extend others take part

Every node has a flag, which all locations that lead to it share: whether its schema was compiled
with the schemas that extend it. A run keeps the flags there are and adds those of new nodes
(`Carries`). The setting of a compiler is the flag of what its user compiles. It is not the flag
of the parts, which are asked for with what extends them.
-/

namespace SchemaGraph

open Compiling

namespace Compiler

variable {c d u : Compiler} {flag : NodeId → Bool}

/-! ## Flags of a compiler -/

/-- The flags of a compiler: its locations tell them, every node was made with its flag, and the
parts of a node have the flags they were asked for with. -/
structure Flagged (c : Compiler) (flag : NodeId → Bool) : Prop where
  tells : c.TellsFlags flag
  made : ∀ (i : Nat) (node : Node), c.draft.slots[i]? = some (some node) →
    (∃ entries path, MadeFrom c entries ⟨path, flag i⟩ node) ∧ node.FlagsParts flag

theorem flagged_withResolver (resolver : Resolver) (config : Config) (flag : NodeId → Bool) :
    Flagged (withResolver resolver config) flag where
  tells key id h := by
    obtain ⟨state, hstate, -⟩ := h
    cases hstate
  made i node h := by cases h

/-- Without new nodes and without new ways to old ones, flags stay. -/
theorem Flagged.carry (h : Flagged c flag) (hcd : Preserves c d) (hdraft : d.draft = c.draft)
    (hleads : ∀ key id, d.LeadsTo key id → c.LeadsTo key id) : Flagged d flag where
  tells key id hkey := h.tells key id (hleads key id hkey)
  made i node hnode := by
    rw [hdraft] at hnode
    obtain ⟨⟨entries, path, hmade⟩, hparts⟩ := h.made i node hnode
    exact ⟨⟨entries, path, hmade.mono hcd⟩, hparts⟩

/-- A failure leads nowhere. -/
theorem leadsTo_of_set {key other : CompileKey} {state : Compiled} {id : NodeId}
    (h : ({ c with memory := c.memory.set key state } : Compiler).LeadsTo other id) :
    (other = key ∧ state.node? = some id) ∨ c.LeadsTo other id := by
  obtain ⟨found, hfound, hnode⟩ := h
  rcases CompileMemory.find?_set_cases hfound with ⟨hsame, rfl⟩ | ⟨-, hbefore⟩
  · exact .inl ⟨hsame, hnode⟩
  · exact .inr ⟨found, hbefore, hnode⟩

/-! ## Runs -/

/-- What a run does to the flags of a compiler: those of its nodes stay. -/
structure Carries (c d : Compiler) : Prop where
  grows : Grows c d
  flags : ∀ {flag}, Coherent c → Flagged c flag →
    ∃ later, (∀ i, i < c.length → later i = flag i) ∧ Flagged d later

/-- What adds no node and no way to one carries the flags. -/
theorem carries_of_draft (hgrows : Grows c d) (hdraft : d.draft = c.draft)
    (hleads : ∀ key id, d.LeadsTo key id → c.LeadsTo key id) : Carries c d := by
  refine ⟨hgrows, fun {flag} _ hflag => ⟨flag, fun _ _ => rfl, ?_⟩⟩
  refine hflag.carry ⟨hgrows.1.config, hgrows.1.formats, fun h => ?_⟩ hdraft hleads
  rw [hdraft]
  exact h

theorem carries_frame : Frame Carries anyPlace where
  refl c := carries_of_draft (grows_frame.refl c) rfl fun _ _ h => h
  trans {a b c} hab hbc := by
    refine ⟨grows_frame.trans hab.grows hbc.grows, fun {flag} hcoherent hflag => ?_⟩
    obtain ⟨middle, hmiddle, hb⟩ := hab.flags hcoherent hflag
    obtain ⟨last, hlast, hc⟩ := hbc.flags (hab.grows.2 hcoherent) hb
    refine ⟨last, fun i hi => ?_, hc⟩
    rw [hlast i (Nat.lt_of_lt_of_le hi hab.grows.1.length), hmiddle i hi]
  onlyResolver {c d} h := by
    refine carries_of_draft (grows_frame.onlyResolver h) (by rw [h.same]) ?_
    rw [h.same]
    exact fun _ _ hleads => hleads
  entry _ _ := trivial
  item _ _ := trivial
  extension _ _ := .inl trivial

/-- A run in a scope and with a chain of its own. -/
theorem Carries.within {r s : Resolver} {chain : List Path} (hgrows : Grows c
      { d with resolver := s, chain := c.chain })
    (h : Carries { c with resolver := r, chain } d) :
    Carries c { d with resolver := s, chain := c.chain } := by
  refine ⟨hgrows, fun {flag} hcoherent hflag => ?_⟩
  obtain ⟨later, hsame, hlater⟩ := h.flags ⟨hcoherent.single, hcoherent.known, hcoherent.closed⟩
    (hflag.carry ⟨rfl, rfl, fun h => h⟩ rfl fun _ _ h => h)
  exact ⟨later, hsame, hlater.carry ⟨rfl, rfl, fun h => h⟩ rfl fun _ _ h => h⟩

/-- A location that is known by a node with its flag tells no new flag. -/
theorem Carries.set (h : Carries c d) {key : CompileKey} {state : Compiled}
    (hgrows : Grows c { d with memory := d.memory.set key state })
    (hstate : ∀ id, state.node? = some id → ∃ path, d.LeadsTo ⟨path, key.polymorphic⟩ id) :
    Carries c { d with memory := d.memory.set key state } := by
  refine ⟨hgrows, fun {flag} hcoherent hflag => ?_⟩
  obtain ⟨later, hsame, hlater⟩ := h.flags hcoherent hflag
  refine ⟨later, hsame, fun other id hleads => ?_, fun i node hnode => ?_⟩
  · rcases leadsTo_of_set hleads with ⟨rfl, hid⟩ | hbefore
    · obtain ⟨path, hpath⟩ := hstate id hid
      have htold := hlater.tells _ _ hpath
      exact htold
    · exact hlater.tells _ _ hbefore
  · obtain ⟨⟨entries, path, hfrom⟩, hparts⟩ := hlater.made i node hnode
    exact ⟨⟨entries, path, hfrom.mono ⟨rfl, rfl, fun h => h⟩⟩, hparts⟩

/-! ## Schemas -/

/-- A node that is reserved gets the flag of its location. -/
theorem Flagged.opened (h : Flagged c flag) (hc : Coherent c) (key : CompileKey) :
    Flagged (opened c key) fun i => if i = c.draft.next then key.polymorphic else flag i := by
  have hold {i : NodeId} (hi : i < c.length) :
      (if i = c.draft.next then key.polymorphic else flag i) = flag i :=
    if_neg (Nat.ne_of_lt hi)
  refine ⟨fun other id hleads => ?_, fun i node hnode => ?_⟩
  · rcases leadsTo_of_set (c := c) hleads with ⟨rfl, hid⟩ | hbefore
    · cases hid
      exact (if_pos rfl).symm
    · obtain ⟨state, hstate, hid⟩ := hbefore
      rw [hold (hc.known hstate hid)]
      exact h.tells _ _ ⟨state, hstate, hid⟩
  · have hpreserves : Preserves c (Compiler.opened c key) := (opened_made key).preserves
    have hi : i < c.length := by
      by_contra hge
      have hlt := GraphDraft.slot_lt hnode
      have hnext : i = c.draft.next := by
        have hlength : i < c.length + 1 := length_opened c key ▸ hlt
        show i = c.length
        omega
      rw [hnext, show (Compiler.opened c key).draft.slots[c.draft.next]? = some none from
        c.draft.slot_reserve_next] at hnode
      cases hnode
    rw [slot_opened hi] at hnode
    obtain ⟨⟨entries, path, hmade⟩, hparts⟩ := h.made i node hnode
    rw [hold hi]
    refine ⟨⟨entries, path, hmade.mono hpreserves⟩, hparts.congr fun part hpart => ?_⟩
    exact hold (hc.closed hnode part hpart)

theorem schema_carries {fuel : Nat} {entries : List (String × Json)} {key : CompileKey}
    (hplain : Entries.find? "$ref" entries = none) (hkey : c.memory.find? key = none)
    (hparts : KeepsParts Carries anyPlace (value fuel)) :
    Carries c (schema (value fuel) fuel entries key c).2 := by
  refine ⟨(schema_sound (value_sound fuel) fuel entries hkey).grows, fun {flag} hc hflag => ?_⟩
  have hextends := grows_frame.node (value_sound fuel).keeps fuel key.polymorphic
    (show anyPlace (.obj entries) key.path from trivial) (opened c key)
  have hnode := carries_frame.node hparts fuel key.polymorphic
    (show anyPlace (.obj entries) key.path from trivial) (opened c key)
  rcases hrun : Compiling.node (value fuel) fuel entries key.path key.polymorphic (opened c key)
    with ⟨r, u⟩
  rw [hrun] at hextends hnode
  obtain ⟨later, hsame, hlater⟩ := hnode.flags (hc.opened key) (hflag.opened hc key)
  rw [length_opened] at hsame
  have hold : ∀ i, i < c.length → later i = flag i := by
    intro i hi
    rw [hsame i (Nat.lt_succ_of_lt hi)]
    exact if_neg (Nat.ne_of_lt hi)
  have hnext : later c.draft.next = key.polymorphic :=
    (hsame c.draft.next (Nat.lt_succ_self _)).trans (if_pos rfl)
  rw [run_schema hrun hextends.1]
  cases r with
  | error failure =>
      refine ⟨later, hold, hlater.carry ⟨rfl, rfl, fun h => h⟩ rfl fun other id hleads => ?_⟩
      rcases leadsTo_of_set (c := u) hleads with ⟨-, hid⟩ | hbefore
      · cases hid
      · exact hbefore
  | ok node =>
      have hended := ended_preserves hextends.1 node (.defined c.draft.next)
      refine ⟨later, hold, fun other id hleads => ?_, fun i found hslot => ?_⟩
      · rcases leadsTo_of_set (c := u) hleads with ⟨rfl, hid⟩ | hbefore
        · cases hid
          exact hnext.symm
        · exact hlater.tells _ _ hbefore
      · change (u.draft.slots.set c.draft.next (some node))[i]? = _ at hslot
        by_cases hi : c.draft.next = i
        · subst hi
          rw [List.getElem?_set_self (GraphDraft.slot_lt (reserved_slot hextends.1))] at hslot
          cases hslot
          rw [hnext]
          exact ⟨⟨entries, key.path, hplain, fuel, fuel, _, u, hrun, hended⟩,
            node_flags hlater.tells hrun⟩
        · rw [List.getElem?_set_ne hi] at hslot
          obtain ⟨⟨written, path, hmade⟩, hflags⟩ := hlater.made i found hslot
          exact ⟨⟨written, path, hmade.mono hended⟩, hflags⟩

/-! ## References -/

/-- A run that carries the flags, and gives a node with the flag it was asked for. -/
structure Answers (asked : Bool) (c : Compiler) (run : Except CompileFailure NodeId × Compiler) :
    Prop where
  carries : Carries c run.2
  leads : ∀ {id}, run.1 = .ok id → ∃ path, run.2.LeadsTo ⟨path, asked⟩ id

theorem Answers.error {asked : Bool} {failure : CompileFailure} (h : Carries c d) :
    Answers asked c (.error failure, d) :=
  ⟨h, fun hok => by cases hok⟩

/-- Compilations that answer with the flag they are asked for. -/
def AnswersParts (compile : CompilingValue) : Prop :=
  ∀ written path referencing flag c, Answers flag c (compile written path referencing flag c)

theorem AnswersParts.keeps {compile : CompilingValue} (h : AnswersParts compile) :
    KeepsParts Carries anyPlace compile :=
  fun written path flag _ c => (h written path path flag c).carries

theorem Answers.known {key : CompileKey} {state : Compiled} (h : c.memory.find? key = some state)
    (referencing : Path) (otherwise : Compiling NodeId) :
    Answers key.polymorphic c (reuse (some state) referencing otherwise c) := by
  cases state with
  | poisoned => exact .error (carries_frame.refl c)
  | _ =>
      refine ⟨carries_frame.refl c, fun hid => ?_⟩
      cases hid
      exact ⟨key.path, _, h, rfl⟩

theorem Answers.reuse (key : CompileKey) (referencing : Path) {otherwise : Compiling NodeId}
    (h : c.memory.find? key = none → Answers key.polymorphic c (otherwise c)) :
    Answers key.polymorphic c
      ((Compiling.known key >>= fun known => reuse known referencing otherwise) c) := by
  rw [run_reuse]
  cases hkey : c.memory.find? key with
  | some state => exact Answers.known hkey referencing otherwise
  | none => exact h hkey

theorem follow_answers {fuel : Nat} (hparts : AnswersParts (value fuel)) {key : CompileKey}
    (url : String) (written : Json) (chain : List Path) (referencing : Path)
    (hkey : c.memory.find? key = none) :
    Answers key.polymorphic c (follow (value fuel) url written chain referencing key c) := by
  have hsound := follow_sound (value_sound fuel) url written chain referencing hkey
  have hanswers := hparts written key.path key.path key.polymorphic
    { c with resolver := c.resolver.pushScope url, chain := key.path :: chain }
  have hwithin := Sound.inScope (Sound.ownChain (value_sound fuel written key.path key.path
    key.polymorphic) (key.path :: chain)) url c
  unfold follow at hsound ⊢
  rw [run_bind_of_ok (run_outcome _ c), run_inScope, run_withChain] at hsound ⊢
  rw [run_inScope, run_withChain] at hwithin
  dsimp only at hsound hwithin ⊢
  generalize value fuel written key.path key.path key.polymorphic
    { c with resolver := c.resolver.pushScope url, chain := key.path :: chain } = run
    at hanswers hsound hwithin ⊢
  obtain ⟨r, d⟩ := run
  have hcarries := Carries.within hwithin.grows hanswers.carries
  cases r with
  | ok node => exact ⟨hcarries, hanswers.leads⟩
  | error failure =>
      cases failure with
      | errors errors => exact .error hcarries
      | outOfFuel => exact .error hcarries
      | recursive => exact .error (hcarries.set hsound.grows fun id hid => nomatch hid)

theorem target_answers {fuel : Nat} (hparts : AnswersParts (value fuel)) (reference : String)
    (referencing : Path) (flag : Bool) (c : Compiler) :
    Answers flag c (target (value fuel) reference referencing flag c) := by
  have hresolve := carries_frame.onlyResolver (onlyResolver_resolve reference c)
  unfold target
  rw [run_bind_of_ok (run_resolve reference c)]
  rw [run_resolve] at hresolve
  generalize ({ c with resolver := (c.resolver.resolve reference).2 } : Compiler) = u
    at hresolve ⊢
  cases (c.resolver.resolve reference).1 with
  | error e => exact .error hresolve
  | ok found =>
      obtain ⟨url, written⟩ := found
      dsimp only
      rw [run_bind_of_ok (run_get _)]
      split
      · exact .error hresolve
      · have hanswers := Answers.reuse (c := u) ⟨Path.ofUri url, flag⟩ referencing
          fun hkey => follow_answers hparts url written u.chain referencing hkey
        exact ⟨carries_frame.trans hresolve hanswers.carries, hanswers.leads⟩

theorem referenceOnly_answers {fuel : Nat} (hparts : AnswersParts (value fuel)) (reference : Json)
    {key : CompileKey} (hkey : c.memory.find? key = none) :
    Answers key.polymorphic c (referenceOnly (value fuel) reference key c) := by
  have hsound := referenceOnly_sound (value_sound fuel) reference hkey
  have hanswers : Answers key.polymorphic c (referenced (value fuel) reference key c) := by
    cases reference with
    | str text => exact target_answers hparts text key.path key.polymorphic c
    | _ => exact .error (carries_frame.refl c)
  unfold referenceOnly at hsound ⊢
  rw [run_bind_of_ok (run_outcome _ c)] at hsound ⊢
  generalize referenced (value fuel) reference key c = run at hanswers hsound ⊢
  obtain ⟨r, d⟩ := run
  cases r with
  | error failure => exact .error (hanswers.carries.set hsound.grows fun id hid => nomatch hid)
  | ok node =>
      refine ⟨hanswers.carries.set hsound.grows fun id hid => ?_, fun hid => ?_⟩
      · cases hid
        exact hanswers.leads rfl
      · cases hid
        exact ⟨key.path, _, CompileMemory.find?_set_self _ _ _, rfl⟩

theorem value_answers (fuel : Nat) : AnswersParts (value fuel) := by
  induction fuel with
  | zero => intro written path referencing flag c; exact .error (carries_frame.refl c)
  | succ fuel ih =>
      intro written path referencing flag c
      refine Answers.reuse ⟨path, flag⟩ referencing fun hkey => ?_
      cases written with
      | obj entries =>
          dsimp only
          cases href : Entries.find? "$ref" entries with
          | some reference => exact referenceOnly_answers ih reference hkey
          | none =>
              refine ⟨schema_carries href hkey ih.keeps, fun {id} hid => ?_⟩
              have hrun : schema (value fuel) fuel entries ⟨path, flag⟩ c =
                  (.ok id, (schema (value fuel) fuel entries ⟨path, flag⟩ c).2) :=
                Prod.ext hid rfl
              obtain ⟨node, u, -, -, rfl, heq⟩ := schema_defined hrun
              rw [heq]
              exact ⟨path, _, CompileMemory.find?_set_self _ _ _, rfl⟩
      | _ => exact .error (carries_frame.refl c)

/-! ## Calls -/

/-- What a pointer compiles to has the flag of the settings. -/
theorem compilePointer_answers (fuel : Nat) (reference : String) (c : Compiler) :
    Answers c.config.allowPolymorphism c (compilePointer fuel reference c) := by
  have hsound := compilePointer_sound fuel reference c
  have hpointer := pointer_onlyResolver reference c
  unfold compilePointer at hsound ⊢
  rw [run_bind] at hsound ⊢
  rcases hrun : pointer reference c with ⟨r, d⟩
  rw [hrun] at hsound hpointer
  have hcd : Carries c d := carries_frame.onlyResolver hpointer
  cases r with
  | error failure => exact .error hcd
  | ok found =>
      obtain ⟨url, written⟩ := found
      have honly : OnlyResolver c d := hpointer
      have hconfig : c.config = d.config := by rw [honly.same]
      dsimp only at hsound ⊢
      rw [run_bind_of_ok (run_get d), run_bind_of_ok (run_outcome _ d), run_inScope,
        run_withChain] at hsound ⊢
      rw [hconfig]
      have hanswers := value_answers fuel written (Path.ofUri url) (Path.ofUri url)
        d.config.allowPolymorphism
        { d with resolver := d.resolver.pushScope url, chain := [Path.ofUri url] }
      have hwithin := Sound.inScope (Sound.ownChain (value_sound fuel written (Path.ofUri url)
        (Path.ofUri url) d.config.allowPolymorphism) [Path.ofUri url]) url d
      rw [run_inScope, run_withChain] at hwithin
      dsimp only at hsound hwithin ⊢
      generalize value fuel written (Path.ofUri url) (Path.ofUri url) d.config.allowPolymorphism
        { d with resolver := d.resolver.pushScope url, chain := [Path.ofUri url] } = run
        at hanswers hsound hwithin ⊢
      obtain ⟨r, u⟩ := run
      have hcarries := carries_frame.trans hcd (Carries.within hwithin.grows hanswers.carries)
      cases r with
      | ok node => exact ⟨hcarries, hanswers.leads⟩
      | error failure =>
          cases failure with
          | errors errors => exact .error hcarries
          | outOfFuel => exact .error hcarries
          | recursive => exact .error (hcarries.set hsound.grows fun id hid => nomatch hid)

/-- After a compilation a compiler has the flags it had, and the node it gave has the flag of the
settings. -/
theorem compile_flags (hc : Settled c) (hflag : Flagged c flag) (fuel : Nat) (pointer : String) :
    ∃ later, (∀ i, i < c.length → later i = flag i) ∧ Flagged (c.compile fuel pointer).2 later ∧
      ∀ id, (c.compile fuel pointer).1 = .ok id → later id = c.config.allowPolymorphism := by
  have hchecked := checkIfAsked_onlyResolver fuel pointer c
  rw [run_compile]
  generalize checkIfAsked fuel pointer c = run at hchecked ⊢
  obtain ⟨r, d⟩ := run
  have hcd : OnlyResolver c d := hchecked
  have hd : Settled d := settled_of_onlyResolver hcd hc
  obtain ⟨before, hbefore, hdflag⟩ :=
    (carries_frame.onlyResolver hcd).flags hc.toCoherent hflag
  cases r with
  | error failure => exact ⟨before, hbefore, hdflag, fun id hid => by cases hid⟩
  | ok _ =>
      have hanswers := compilePointer_answers fuel pointer d
      have hconfig : c.config = d.config := by rw [hcd.same]
      have hlength : c.length = d.length := by rw [hcd.same]; rfl
      dsimp only
      rw [run_undoOnFailure, hconfig]
      generalize compilePointer fuel pointer d = run at hanswers ⊢
      obtain ⟨r, u⟩ := run
      obtain ⟨later, hlater, huflag⟩ := hanswers.carries.flags hd.toCoherent hdflag
      have hsame : ∀ i, i < c.length → later i = flag i := fun i hi => by
        rw [hlater i (hlength ▸ hi), hbefore i hi]
      cases r with
      | ok node =>
          refine ⟨later, hsame, huflag, fun id hid => ?_⟩
          obtain ⟨path, hpath⟩ := hanswers.leads hid
          have htold := huflag.tells _ _ hpath
          exact htold.symm
      | error failure =>
          have hgrows : Grows d u := hanswers.carries.grows
          have hdraft : (undone d u).draft = d.draft := draft_undone hgrows.1
          refine ⟨later, hsame, ⟨fun key id hleads => ?_, fun i node hnode => ?_⟩,
            fun id hid => by cases hid⟩
          · obtain ⟨state, hstate, hid⟩ := hleads
            rw [find?_undone (hgrows.2 hd.toCoherent)] at hstate
            exact huflag.tells _ _ ⟨state, Option.eq_some_of_filter_eq_some hstate, hid⟩
          · -- what is left are the nodes from before
            rw [hdraft] at hnode
            have hi : i < d.length := GraphDraft.slot_lt hnode
            obtain ⟨⟨entries, path, hmade⟩, hparts⟩ := hdflag.made i node hnode
            have hpreserves : Preserves d (undone d u) :=
              ⟨hgrows.1.config, hgrows.1.formats, fun h => by rw [hdraft]; exact h⟩
            rw [hlater i hi]
            refine ⟨⟨entries, path, hmade.mono hpreserves⟩, hparts.congr fun part hpart => ?_⟩
            exact hlater part (hd.closed hnode part hpart)

/-- Every run of calls has flags, and gives its user nodes with the flag of the settings. -/
theorem calls_flags (calls : List Call) : ∀ {c : Compiler} {flag : NodeId → Bool}, Settled c →
    Flagged c flag →
    ∃ later, (∀ i, i < c.length → later i = flag i) ∧ Flagged (c.calls calls).1 later ∧
      ∀ id ∈ (c.calls calls).2, later id = c.config.allowPolymorphism := by
  induction calls with
  | nil =>
      intro c flag _ hflag
      exact ⟨flag, fun _ _ => rfl, hflag, fun id hid => by cases hid⟩
  | cons first rest ih =>
      intro c flag hc hflag
      obtain ⟨hd, hextends, hgiven⟩ := call_settled hc first
      have hfirst : ∃ middle, (∀ i, i < c.length → middle i = flag i) ∧
          Flagged (c.call first).1 middle ∧
          ∀ id ∈ (c.call first).2, middle id = c.config.allowPolymorphism := by
        cases first with
        | compile fuel pointer =>
            obtain ⟨middle, hsame, hmiddle, hnode⟩ := compile_flags hc hflag fuel pointer
            refine ⟨middle, hsame, hmiddle, fun id hid => hnode id ?_⟩
            change (c.compile fuel pointer).1.toOption = some id at hid
            cases hresult : (c.compile fuel pointer).1 with
            | error failure =>
                rw [hresult] at hid
                cases hid
            | ok found =>
                rw [hresult] at hid
                cases hid
                rfl
        | check fuel pointer =>
            obtain ⟨middle, hsame, hmiddle⟩ :=
              (carries_frame.onlyResolver (check_onlyResolver fuel pointer c)).flags
                hc.toCoherent hflag
            exact ⟨middle, hsame, hmiddle, fun id hid => by cases hid⟩
      obtain ⟨middle, hmiddle, hdflag, hnodes⟩ := hfirst
      obtain ⟨later, hlater, heflag, hrest⟩ := ih hd hdflag
      refine ⟨later, fun i hi => ?_, heflag, fun id hid => ?_⟩
      · rw [hlater i (Nat.lt_of_lt_of_le hi hextends.length), hmiddle i hi]
      · rcases List.mem_append.1 hid with hid | hid
        · have hid := Option.mem_toList.1 hid
          rw [hlater id (hgiven id hid), hnodes id hid]
        · rw [hrest id hid, hextends.config]

/-! ## Objects and unions -/

/-- A schema that others extend: it has a discriminator, and schemas beside it refer to it first in
their combination of all. -/
def IsExtended (c : Compiler) (keywords : Keywords) : Prop :=
  (keywords.mapping "discriminator").value.isSome = true ∧ extensions c keywords.path ≠ []

/-- A schema became a node in one compiler, on the way to another one. -/
structure MadeIn (u c : Compiler) (entries : List (String × Json)) (key : CompileKey)
    (node : Node) : Prop where
  plain : Entries.find? "$ref" entries = none
  run : ∃ fuel depth u', Compiling.node (value fuel) depth entries key.path key.polymorphic u =
    (.ok node, u') ∧ Preserves u' c

theorem MadeFrom.madeIn {entries : List (String × Json)} {key : CompileKey} {node : Node}
    (h : MadeFrom c entries key node) : ∃ u, MadeIn u c entries key node := by
  obtain ⟨fuel, depth, u, u', hrun, hpreserves⟩ := h.run
  exact ⟨u, h.plain, fuel, depth, u', hrun, hpreserves⟩

theorem participants_isEmpty (u : Compiler) (keywords : Keywords) (polymorphic : Bool) :
    ((keywords.mapping "discriminator").value.isSome &&
        !(participants u keywords polymorphic (keywords.mapping "discriminator").value).isEmpty) =
      true ↔ polymorphic = true ∧ u.IsExtended keywords := by
  unfold participants IsExtended
  cases polymorphic <;> cases (keywords.mapping "discriminator").value <;> simp

/-- An object becomes a union if it is flagged and extended, and any other object stays one. -/
theorem MadeIn.object {entries : List (String × Json)} {key : CompileKey} {node : Node}
    (h : MadeIn u c entries key node)
    (hkind : SchemaKind.ofSchema entries c.messages = .ok (some .object)) :
    (key.polymorphic = true ∧ u.IsExtended ⟨entries, key.path, c.messages⟩ →
      ∃ common property mapping, node = .typed common (.discriminated property mapping)) ∧
    (¬(key.polymorphic = true ∧ u.IsExtended ⟨entries, key.path, c.messages⟩) →
      ∃ common shape, node = .typed common (.object shape)) := by
  obtain ⟨fuel, depth, u', hrun, hpreserves⟩ := h.run
  have hextends := grows_frame.node (value_sound fuel).keeps depth key.polymorphic
    (show anyPlace (.obj entries) key.path from trivial) u
  rw [hrun] at hextends
  have hmessages : c.messages = u.messages :=
    congrArg Config.messages (hpreserves.config.trans hextends.1.config)
  rw [hmessages] at hkind ⊢
  obtain ⟨kind, assembly, hkindHere, hassemble, hnode⟩ := node_assembles hrun
  rw [hkindHere] at hkind
  cases hkind
  obtain ⟨compiler, v, hget, hassemble⟩ := bind_ok hassemble
  cases hget
  obtain ⟨found, w, hstructured, hassemble⟩ := bind_ok hassemble
  cases hassemble
  have hbecomes := structured_becomes hstructured hnode
  rw [← participants_isEmpty]
  split at hbecomes
  · rename_i htakesPart
    obtain ⟨property, mapping, hunion⟩ := hbecomes
    exact ⟨fun _ => ⟨_, property, mapping, hunion⟩, fun hnot => absurd htakesPart hnot⟩
  · rename_i htakesPart
    exact ⟨fun hyes => absurd hyes htakesPart, fun _ => hbecomes⟩

/-- Where schemas that extend an object take part is a matter of flags. The setting of the compiler
is the flag of the nodes it gives its user. The parts of a node are flagged whatever the setting is,
but for the first one of a combination of all. An object schema becomes a union exactly where it is
flagged and extended, and an object elsewhere. -/
theorem polymorphism_by_position (resolver : Resolver) (config : Config) (calls : List Call)
    {id : NodeId} {graph : Graph}
    (hgraph : ((withResolver resolver config).calls calls).1.graph id = .ok graph) :
    let given := ((withResolver resolver config).calls calls).2
    let c := ((withResolver resolver config).calls calls).1
    ∃ flag : NodeId → Bool,
      (∀ i ∈ given, flag i = config.allowPolymorphism) ∧
      ∀ i node, graph.get? i = some node → node.FlagsParts flag ∧
        ∃ u entries path, MadeIn u c entries ⟨path, flag i⟩ node ∧
          (SchemaKind.ofSchema entries config.messages = .ok (some .object) →
            (flag i = true ∧ u.IsExtended ⟨entries, path, config.messages⟩ →
              ∃ common property mapping, node = .typed common (.discriminated property mapping)) ∧
            (¬(flag i = true ∧ u.IsExtended ⟨entries, path, config.messages⟩) →
              ∃ common shape, node = .typed common (.object shape))) := by
  intro given c
  have hstart := settled_withResolver resolver config
  obtain ⟨hc, hextends, -⟩ := calls_settled calls hstart
  obtain ⟨flag, -, hflag, hgiven⟩ :=
    calls_flags calls hstart (flagged_withResolver resolver config fun _ => false)
  refine ⟨flag, hgiven, fun i node hnode => ?_⟩
  have hslot := (draws_of_graph hc hgraph i node).1 hnode
  obtain ⟨⟨entries, path, hmade⟩, hparts⟩ := hflag.made i node hslot
  obtain ⟨u, hmadeIn⟩ := hmade.madeIn
  have hmessages : c.messages = config.messages := congrArg Config.messages hextends.config
  refine ⟨hparts, u, entries, path, hmadeIn, fun hkind => ?_⟩
  rw [← hmessages] at hkind ⊢
  exact hmadeIn.object hkind

/-- An object that another schema extends. -/
def petSchema : List (String × Json) :=
  [("type", .str "object"), ("discriminator", .obj [("propertyName", .str "kind")]),
    ("properties", .obj [("kind", .obj [("type", .str "string")])])]

/-- A schema with a property whose schema is extended. -/
def ownerDocument : Json :=
  .obj [("Owner", .obj [("type", .str "object"),
      ("properties", .obj [("pet", .obj [("$ref", .str "#/Pet")])])]),
    ("Pet", .obj petSchema), ("Cat", .obj [("allOf", .arr [.obj [("$ref", .str "#/Pet")]])])]

/-- The settings without schemas that extend others. -/
def plainConfig : Config := { Config.default with allowPolymorphism := false }

/-- An object refers to a schema, and a schema that extends another one to that. -/
def ownsExtended (graph : Graph) : Bool :=
  match graph.get? 0, graph.get? 2 with
  | some (.typed _ (.object shape)), some (.typed _ (.allOf parts)) =>
    (Shape.object shape).children == [1] && parts == [3]
  | _, _ => false

theorem polymorphism_by_position_owner :
    let run := (withResolver (.ofConfig [] ownerDocument plainConfig) plainConfig).calls
      [.compile 40 "#/Owner"]
    run.2 = [0] ∧ ∃ graph, run.1.graph 0 = .ok graph ∧
      ∃ flag : NodeId → Bool, flag 0 = false ∧ flag 1 = true ∧ flag 3 = false ∧
        ∃ owner cat, graph.get? 0 = some owner ∧ owner.children = [1] ∧
          graph.get? 2 = some cat ∧ cat.children = [3] := by
  intro run
  have hrun : (run.2 == [0] && (run.1.graph 0).toOption.any ownsExtended) = true := by
    decide +kernel
  obtain ⟨hgiven, hnodes⟩ := Bool.and_eq_true_iff.1 hrun
  have hgiven : run.2 = [0] := eq_of_beq hgiven
  obtain ⟨graph, hgraph, hnodes⟩ := exists_of_any hnodes
  obtain ⟨flag, hentry, hnode⟩ := polymorphism_by_position _ _ _ hgraph
  have hentry : ∀ i ∈ run.2, flag i = false := hentry
  unfold ownsExtended at hnodes
  split at hnodes
  · rename_i common shape common' parts howner hcat
    obtain ⟨hchildren, hparts⟩ := Bool.and_eq_true_iff.1 hnodes
    have hchildren : (Shape.object shape).children = [1] := eq_of_beq hchildren
    have hparts : parts = [3] := eq_of_beq hparts
    subst hparts
    rw [hgiven] at hentry
    have hone : flag 1 = true := by
      refine (hnode 0 _ howner).1 1 ?_
      show 1 ∈ (Shape.object shape).children
      rw [hchildren]
      exact List.mem_cons_self
    have hthree : flag 3 = false := (hnode 2 _ hcat).1 0 3 rfl
    exact ⟨hgiven, graph, hgraph, flag, hentry 0 List.mem_cons_self, hone, hthree, _, _, howner,
      hchildren, hcat, rfl⟩
  · cases hnodes

/-- The first schema refers to one that is told apart by a property. -/
def ownsDiscriminated (graph : Graph) : Bool :=
  match graph.get? 0, graph.get? 1 with
  | some owner, some (.typed _ (.discriminated _ _)) => owner.children.contains 1
  | _, _ => false

/-- Behind a property an object that others extend becomes a union, though the setting is against
it. -/
theorem extended_behind_property :
    let run := (withResolver (.ofConfig [] ownerDocument plainConfig) plainConfig).calls
      [.compile 40 "#/Owner"]
    plainConfig.allowPolymorphism = false ∧ run.2 = [0] ∧
      SchemaKind.ofSchema petSchema plainConfig.messages = .ok (some .object) ∧
      run.1.memory.find? ⟨Path.ofUri "#/Pet", true⟩ = some (.defined 1) ∧
      ∃ graph owner common property mapping, run.1.graph 0 = .ok graph ∧
        graph.get? 0 = some owner ∧ 1 ∈ owner.children ∧
        graph.get? 1 = some (.typed common (.discriminated property mapping)) := by
  intro run
  have hrun : (run.2 == [0] &&
      run.1.memory.find? ⟨Path.ofUri "#/Pet", true⟩ == some (.defined 1) &&
      (run.1.graph 0).toOption.any ownsDiscriminated) = true := by decide +kernel
  obtain ⟨hleft, hnodes⟩ := Bool.and_eq_true_iff.1 hrun
  obtain ⟨hgiven, hknown⟩ := Bool.and_eq_true_iff.1 hleft
  refine ⟨rfl, eq_of_beq hgiven, by rfl, eq_of_beq hknown, ?_⟩
  obtain ⟨graph, hgraph, hnodes⟩ := exists_of_any hnodes
  unfold ownsDiscriminated at hnodes
  split at hnodes
  · rename_i owner common property mapping howner hpet
    exact ⟨graph, owner, common, property, mapping, hgraph, howner, by simpa using hnodes, hpet⟩
  · cases hnodes

end Compiler

end SchemaGraph
