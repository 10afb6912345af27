import SchemaGraph.Proofs.Compiler.Balance
import SchemaGraph.Proofs.Resolver.Runs

set_option autoImplicit false

/-! # Documents are retrieved once

A compiler checks and compiles, its resolver may be used in between, and some of this fails: a
reference has no target, or what was retrieved for it is forgotten by the memories. Each step leaves
the documents to the same retrieving (`Compiler.use_retrieves`), and so does every run of them
(`Compiler.uses_retrieve`). So whoever gave a document once is not asked for it again
(`Compiler.documents_retrieved_once`).
-/

namespace SchemaGraph

namespace Resolver

/-- What any request retrieves was not stored before. -/
theorem Retrieves.after (r : Resolver) (request : Request) :
    ∃ asked, Retrieves r (r.after request) asked := by
  cases request with
  | resolve reference => exact Retrieves.resolve r reference
  | resolveUrl url => exact Retrieves.resolveUrl r url
  | enter reference => exact ⟨[], .pushScope r reference⟩
  | leave => exact ⟨[], (Retrieves.refl r).leaveScope⟩

end Resolver

namespace Compiler

open Resolver (Request Retrieves)

/-- What can be done with a compiler: its resolver is asked for something, or it is called. -/
inductive Use where
  | request (request : Request)
  | call (call : Call)

/-- The compiler after one use. -/
def use (c : Compiler) : Use → Compiler
  | .request request => { c with resolver := c.resolver.after request }
  | .call call => (c.call call).1

/-- The compiler after a run of uses. -/
def uses (c : Compiler) (run : List Use) : Compiler := run.foldl use c

theorem use_retrieves (c : Compiler) (step : Use) :
    ∃ asked, Retrieves c.resolver (c.use step).resolver asked := by
  cases step with
  | request request => exact Retrieves.after c.resolver request
  | call call =>
      cases call with
      | compile fuel pointer => exact (c.compile_balanced fuel pointer).retrieves
      | check fuel pointer => exact (c.check_balanced fuel pointer).retrieves

theorem uses_retrieve (c : Compiler) (run : List Use) :
    ∃ asked, Retrieves c.resolver (c.uses run).resolver asked := by
  induction run generalizing c with
  | nil => exact ⟨[], .refl c.resolver⟩
  | cons first rest ih =>
      obtain ⟨earlier, hfirst⟩ := c.use_retrieves first
      obtain ⟨later, hrest⟩ := ih (c.use first)
      exact ⟨later ++ earlier, hfirst.trans hrest⟩

/-- If a compiler keeps what its resolver retrieves, then whatever is done with it, retrievers are
asked only for documents that are not stored, and not again for one that they gave. In the end
those are stored, besides what was stored at the start. -/
theorem documents_retrieved_once (c : Compiler) (hcache : c.resolver.cacheRemote = true)
    (run : List Use) : ∃ asked, (c.uses run).resolver.asked = asked ++ c.resolver.asked ∧
      (∀ uri, (c.resolver.retrieved? uri).isSome = true → asked.count uri ≤ 1) ∧
      (∀ later uri earlier, asked = later ++ uri :: earlier →
        Entries.find? uri c.resolver.store = none ∧
          ((c.resolver.retrieved? uri).isSome = true → uri ∉ earlier)) ∧
      ∀ uri, Entries.find? uri (c.uses run).resolver.store =
        (Entries.find? uri c.resolver.store).or
          (if uri ∈ asked then c.resolver.retrieved? uri else none) := by
  obtain ⟨asked, h⟩ := c.uses_retrieve run
  refine ⟨asked, h.log, fun uri => h.count_le_one hcache, fun later uri earlier hsplit => ?_,
    fun uri => ?_⟩
  · subst hsplit
    exact h.not_mem_earlier hcache
  · rw [h.store]
    exact Resolver.find?_storeAfter hcache h.missing uri

/-- One document is there to be retrieved. -/
def library : Retriever := fun uri =>
  if uri == "lib:pets" then .ok (.obj [("Pet", .obj [("type", .str "string")])])
  else .error (.fetch uri "no such document")

/-- With room for one entry in each memory, and after references that have no target, a document
is still retrieved once; one that was not given is asked for again. -/
theorem documents_retrieved_once_library :
    let config := { Config.default with joinCacheSize := 1, remoteCacheSize := 1 }
    let c := Compiler.ofDocument [("lib", library)] (.obj []) config
    let run : List Use := [.request (.resolve "lib:pets#/Dog"), .call (.check 9 "lib:cars#/Car"),
      .request (.enter "lib:pets"), .call (.compile 9 "#/Pet"), .request .leave,
      .request (.resolveUrl "lib:cars"), .request (.resolve "lib:pets#/Pet")]
    c.resolver.cacheRemote = true ∧
      (c.uses run).resolver.asked = ["lib:cars", "lib:cars", "lib:pets"] ∧
      (c.uses run).resolver.asked.count "lib:pets" ≤ 1 ∧
      Entries.find? "lib:pets" (c.uses run).resolver.store = (library "lib:pets").toOption := by
  intro config c run
  have hasked : (c.uses run).resolver.asked = ["lib:cars", "lib:cars", "lib:pets"] := by
    decide +kernel
  have hgiven : (c.resolver.retrieved? "lib:pets").isSome = true := by decide +kernel
  obtain ⟨asked, hlog, hcount, -, hstore⟩ := documents_retrieved_once c rfl run
  have hsame : asked = ["lib:cars", "lib:cars", "lib:pets"] := by
    rw [← hasked, hlog]
    exact (List.append_nil asked).symm
  refine ⟨rfl, hasked, ?_, ?_⟩
  · rw [hasked, ← hsame]
    exact hcount "lib:pets" hgiven
  · rw [hstore, hsame, if_pos (by decide)]
    rfl

end Compiler

end SchemaGraph
