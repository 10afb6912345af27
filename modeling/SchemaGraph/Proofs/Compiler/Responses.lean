import SchemaGraph.Proofs.Compiler.Origin

set_option autoImplicit false

/-! # Responses through a compiled graph

Every node of a graph was made from a schema. So strict responses pass through the graphs of a
compiler unchanged, unless a schema asks for bytes.
-/

namespace SchemaGraph

namespace Compiler

/-- A strict conversion of a response only validates. Whatever was called before, and whatever of
it failed: where such a conversion gives a value, the value written as JSON is the payload. The
nodes that have to be excluded come from schemas of the format `byte`. -/
theorem strict_responses_validate (resolver : Resolver) (config : Config) (calls : List Call)
    {id : NodeId} {graph : Graph}
    (hgraph : ((withResolver resolver config).calls calls).1.graph id = .ok graph)
    (hbytes : ∀ i node, graph.Reaches id i → graph.get? i = some node → node.takesBytes = false)
    {payload : Json} (hplain : payload.IsPlain) (fuel : Nat) (result : Converted) :
    (graph.convert fuel id payload Conversion.strictResponse = .converted result →
      result.value.toJson = payload) ∧
    (∀ path (at? : Option Resolver),
      (graph.convertAt fuel id (some payload) path Conversion.strictResponse at?).1 =
        .converted result → result.value.toJson = payload) ∧
    ∀ i node, graph.get? i = some node → node.takesBytes = true →
      ∃ entries key, MadeFrom ((withResolver resolver config).calls calls).1 entries key node ∧
        (Keywords.string ⟨entries, key.path, config.messages⟩ "format").value = some "byte" := by
  have hstays : StaysMade (withResolver resolver config)
    ((withResolver resolver config).calls calls).1 := calls_made calls
  have hmade := hstays.made (allMade_withResolver resolver config)
  have hsettled := (calls_settled calls (settled_withResolver resolver config)).1
  have hechoes : Conversion.Echoes (graph.convertWithin Conversion.strictResponse fuel) id := by
    refine Graph.convertWithin_echo (fun i node hreaches hnode => ?_) fuel id .here
    obtain ⟨entries, key, hfrom⟩ := made_of_graph hmade hsettled hgraph hnode
    exact hfrom.echoes (hbytes i node hreaches hnode)
  refine ⟨Graph.convert_shows hechoes hplain,
    fun path at? => (Graph.convertAt_shows hechoes hplain path at?).2 result, ?_⟩
  intro i node hnode htakes
  obtain ⟨entries, key, hfrom⟩ := made_of_graph hmade hsettled hgraph hnode
  have hbyte := hfrom.byte hstays.preserves.formats htakes
  unfold messages at hbyte
  rw [hstays.preserves.config] at hbyte
  exact ⟨entries, key, hfrom, hbyte⟩

/-- A document with a schema that extends another one. -/
def extendingDocument : Json :=
  .obj [("Named", .obj [("properties", .obj [("name", .obj [("type", .str "string")])])]),
    ("Pet", .obj [("allOf", .arr [.obj [("$ref", .str "#/Named")],
      .obj [("properties", .obj [("tags", .obj [("items", .obj [("type", .str "string")])])])]])])]

theorem strict_responses_validate_extending :
    let c := ((withResolver (.ofConfig [] extendingDocument .default) .default).calls
      [.compile 40 "#/Pet"]).1
    let payload : Json := .obj [("name", .str "Rex"), ("tags", .arr [.str "old", .str "dog"])]
    payload.IsPlain ∧ ∃ graph, c.graph 0 = .ok graph ∧
      (∀ i node, graph.Reaches 0 i → graph.get? i = some node → node.takesBytes = false) ∧
      ∃ result, graph.convert 12 0 payload Conversion.strictResponse = .converted result ∧
        result.value.toJson = payload := by
  intro c payload
  have hplain : payload.IsPlain := ⟨by decide +kernel, by decide +kernel⟩
  have hruns : (c.graph 0).toOption.any (fun graph =>
      graph.nodes.all (fun node => !node.takesBytes) &&
        (graph.convert 12 0 payload Conversion.strictResponse).isConverted) = true := by
    decide +kernel
  refine ⟨hplain, ?_⟩
  obtain ⟨graph, hgraph, hruns⟩ := exists_of_any hruns
  obtain ⟨hnodes, hconverts⟩ := Bool.and_eq_true_iff.1 hruns
  have hbytes : ∀ i node, graph.Reaches 0 i → graph.get? i = some node →
      node.takesBytes = false := by
    intro i node _ hnode
    simpa using List.all_eq_true.1 hnodes node (List.mem_of_getElem? hnode)
  obtain ⟨result, hresult⟩ := Outcome.exists_of_isConverted hconverts
  exact ⟨graph, hgraph, hbytes, result, hresult,
    (strict_responses_validate _ _ _ hgraph hbytes hplain 12 result).1 hresult⟩

end Compiler

end SchemaGraph
