import SchemaGraph.Proofs.Resolver
import SchemaGraph.Proofs.Url.ReadBack

set_option autoImplicit false

/-! # Joining twice

What a reference joined to is joined to the same scope once more. A URL joins to itself if its text
is read as that URL. To a relative scope a path from the root joins as it does at the root, and any
other path gets the directory of the scope in front (`join_isPlain`), each time it is joined.
-/

namespace SchemaGraph

namespace Url

variable {base : Url} {c : Char} {rest : List Char}

theorem readRelative?_slash (hc : isSlash c = true)
    (hsingle : (rest.head?.map isSlash).getD false = false) :
    readRelative? base (c :: rest) =
      some (withTail { base with path := extendPath base.kind ['/'] (upToQuery rest) }
        (c :: rest)) := by
  unfold readRelative?
  split
  · rename_i heq
    cases heq
  · rename_i heq
    cases heq
    cases hc
  · rename_i heq
    cases heq
    cases hc
  · rename_i heq
    cases heq
    rw [if_pos hc, hsingle]
    rfl

theorem readRelative?_segment (hc : isSlash c = false) (hends : endsPath c = false)
    (hpath : dropSegment base.kind base.path ≠ []) :
    readRelative? base (c :: rest) = some (withTail { base with
      path := extendPath base.kind (dropSegment base.kind base.path) (upToQuery (c :: rest)) }
        (c :: rest)) := by
  have hempty : (dropSegment base.kind base.path).isEmpty = false := by simpa using hpath
  unfold readRelative?
  split
  · rename_i heq
    cases heq
  · rename_i heq
    cases heq
    cases hends
  · rename_i heq
    cases heq
    cases hends
  · rename_i heq
    cases heq
    rw [hc, if_neg Bool.false_ne_true]
    dsimp only
    rw [hempty]
    rfl

end Url

namespace Uri

open Url (IsWritten IsPath)

/-! ## URLs -/

theorem not_isEmpty {text : String} (h : text ≠ "") : text.isEmpty = false := by
  rw [Bool.eq_false_iff]
  exact fun hempty => h (String.isEmpty_iff.1 hempty)

/-- What is a URL joins to its written form, whatever the scope. -/
theorem join_of_read? {reference : String} {url : Url} (h : Url.read? reference = some url)
    (scope : String) : join scope reference = url.text := by
  have hne : reference ≠ "" := by
    rintro rfl
    cases h
  unfold join
  rw [not_isEmpty hne, h]
  rfl

/-- The URL a reference resolves to, where it or its scope is a URL. -/
def resolved? (scope reference : String) : Option Url :=
  match Url.read? reference with
  | some url => some url
  | none => (Url.read? scope).bind fun base => base.join? reference

variable {scope reference : String} {url : Url}

theorem isWritten_of_resolved? (h : resolved? scope reference = some url) : IsWritten url := by
  unfold resolved? at h
  split at h
  · rename_i hread
    cases h
    exact Url.isWritten_of_read? hread
  · obtain ⟨base, hbase, h⟩ := Option.bind_eq_some_iff.1 h
    exact (Url.isWritten_of_read? hbase).join? h

theorem join_of_resolved? (hne : reference ≠ "") (h : resolved? scope reference = some url) :
    join scope reference = url.text := by
  unfold resolved? at h
  split at h
  · rename_i hread
    cases h
    exact join_of_read? hread scope
  · rename_i hread
    obtain ⟨base, hbase, h⟩ := Option.bind_eq_some_iff.1 h
    unfold join
    rw [not_isEmpty hne, hread, hbase]
    show ((base.join? reference).map Url.text).getD reference = url.text
    rw [h]
    rfl

/-- A URL that stands joins to itself. -/
theorem join_join_of_resolved? (hne : reference ≠ "") (h : resolved? scope reference = some url)
    (hstands : url.Stands) : join scope (join scope reference) = join scope reference := by
  have hback := Url.read?_text (isWritten_of_resolved? h) hstands
  rw [join_of_resolved? hne h, join_of_read? hback]

/-- What a URL cannot resolve stays as it is. -/
theorem join_unresolved (hne : reference ≠ "") {base : Url} (hscope : Url.read? scope = some base)
    (h : resolved? scope reference = none) : join scope reference = reference := by
  unfold resolved? at h
  split at h
  · cases h
  · rename_i hread
    rw [hscope] at h
    have hjoin : base.join? reference = none := h
    unfold join
    rw [not_isEmpty hne, hread, hscope]
    show ((base.join? reference).map Url.text).getD reference = reference
    rw [hjoin]
    rfl

/-! ## Relative scopes -/

/-- The text that relative scopes are put behind. -/
def origin : List Char := "http://resolver.invalid".toList

/-- What relative scopes are resolved against. -/
def root : Url := ⟨"http".toList, some ⟨[], "resolver.invalid".toList, none⟩, ['/'], none, none⟩

theorem read?_placeholder : Url.read? placeholder = some root := by decide +kernel

theorem root_isWritten : IsWritten root := Url.isWritten_of_read? read?_placeholder

/-- The URL lies below the placeholder. -/
def IsBelow (url : Url) : Prop := url.scheme = root.scheme ∧ url.authority = root.authority

theorem IsBelow.kind (h : IsBelow url) : url.kind = .special := by
  rw [Url.kind, h.1]
  rfl

theorem IsBelow.isPath (h : IsBelow url) (hwritten : IsWritten url) :
    IsPath .special url.path := by
  have hplace := hwritten.place
  have hkind : Url.kindOf url.scheme = .special := h.kind
  rw [h.2] at hplace
  generalize url.path = path at hplace ⊢
  have hpath := hplace.isPath
  rw [hkind] at hpath
  rcases hpath with rfl | hpath | ⟨hnone, -⟩
  · cases hplace with
    | special _ _ hpath => exact hpath
    | file hfile _ _ =>
        rw [hkind] at hfile
        cases hfile
    | other hother _ _ =>
        rw [hkind] at hother
        cases hother
  · exact hpath
  · cases hnone

theorem text_isBelow (h : IsBelow url) :
    url.text = String.ofList (origin ++ (url.path ++ url.tailText)) := by
  rw [Url.text_eq, Url.beforeQuery_authority h.2, h.1]
  congr 1

theorem withoutStart?_append (start rest : List Char) :
    withoutStart? start (start ++ rest) = some rest := by
  unfold withoutStart?
  rw [if_pos (List.isPrefixOf_iff_prefix.2 (List.prefix_append start rest)), List.drop_left]

/-- Scope or reference start at the root, whose slash then stays. -/
def isRooted (scope reference : String) : Bool :=
  scope.toList.head? == some '/' || reference.toList.head? == some '/'

/-- The path from where relative texts start. -/
def shown (rooted : Bool) (path : List Char) : List Char := if rooted then path else path.drop 1

theorem joinRelative_isBelow {base : Url} (hbase : root.join? scope = some base)
    (hurl : base.join? reference = some url) (hwritten : IsWritten url) (hbelow : IsBelow url) :
    joinRelative scope reference =
      String.ofList (shown (isRooted scope reference) url.path ++ url.tailText) := by
  have hstart : placeholder.toList.dropLast = origin ∧ placeholder.toList = origin ++ ['/'] := by
    decide
  have hjoined : (do
      let placeholder ← Url.read? placeholder
      let base ← placeholder.join? scope
      base.join? reference) = some url := by
    rw [read?_placeholder]
    show (root.join? scope).bind (fun base => base.join? reference) = some url
    rw [hbase]
    exact hurl
  obtain ⟨first, segments, -, -, hpath⟩ := hbelow.isPath hwritten
  have hroot : url.path = '/' :: url.path.drop 1 := by rw [hpath]; rfl
  have hcut : withoutStart? (if isRooted scope reference then origin else origin ++ ['/'])
      (origin ++ (url.path ++ url.tailText)) =
        some (shown (isRooted scope reference) url.path ++ url.tailText) := by
    unfold shown
    cases isRooted scope reference with
    | true => exact withoutStart?_append origin _
    | false =>
        have hsplit : origin ++ (url.path ++ url.tailText) =
            origin ++ ['/'] ++ (url.path.drop 1 ++ url.tailText) := by
          rw [hroot]
          simp
        rw [hsplit]
        exact withoutStart?_append _ _
  unfold joinRelative
  dsimp only
  rw [hjoined]
  dsimp only
  rw [text_isBelow hbelow, String.toList_ofList, hstart.1, hstart.2]
  unfold isRooted at hcut ⊢
  rw [hcut]

/-- The scope lies in a directory below the placeholder. -/
def base? (scope : String) : Option Url :=
  (root.join? scope).filter fun base =>
    base.scheme == root.scheme && base.authority == root.authority

/-- The directory of a relative scope, without the slash at the start unless the scope has it. -/
def directory? (scope : String) : Option (List Char) :=
  (base? scope).map fun base =>
    shown (scope.toList.head? == some '/') (Url.dropSegment .special base.path)

theorem base?_eq_some {base : Url} (h : base? scope = some base) :
    root.join? scope = some base ∧ IsWritten base ∧ IsBelow base := by
  obtain ⟨hjoin, hsame⟩ := Option.filter_eq_some_iff.1 h
  obtain ⟨hscheme, hauthority⟩ := Bool.and_eq_true_iff.1 hsame
  exact ⟨hjoin, root_isWritten.join? hjoin, eq_of_beq hscheme, eq_of_beq hauthority⟩

theorem base?_root : base? "" = some root := by decide +kernel

theorem join_relative (hne : reference ≠ "") (hscope : Url.read? scope = none)
    (hreference : Url.read? reference = none) (hstart : reference.toList.head? ≠ some '#') :
    join scope reference = joinRelative scope reference := by
  unfold join
  rw [not_isEmpty hne, if_neg Bool.false_ne_true, hreference, hscope]
  dsimp only
  split
  · rename_i fragment heq
    rw [heq] at hstart
    exact absurd rfl hstart
  · rfl

theorem withoutScheme?_below {base : Url} (hwritten : IsWritten base) (hbelow : IsBelow base)
    {text : List Char} (hstart : text.head? ≠ some '#') :
    Url.withoutScheme? (some base) text = Url.readRelative? base text := by
  have hkind := hbelow.kind
  have hopaque : base.hasOpaquePath = false := by
    refine hwritten.place.isRooted_of_kind ?_
    rw [← Url.kind, hkind]
    exact fun h => by cases h
  have hhash : (text.head? == some '#') = false := by
    rw [beq_eq_false_iff_ne]
    exact hstart
  unfold Url.withoutScheme?
  show (if text.head? == some '#' then some (base.withFragment text)
    else if base.hasOpaquePath then none
    else if base.kind == .file then Url.readFile? (some base) text
    else Url.readRelative? base text) = _
  rw [hhash, hopaque, hkind]
  rfl

/-! ## Paths from the root -/

/-- A path from the root: one slash comes first. -/
def IsRooted (reference : String) : Prop :=
  reference.toList.head? = some '/' ∧ ∃ rest, Url.cleaned reference = '/' :: rest ∧
    rest.head? ≠ some '/' ∧ rest.head? ≠ some '\\'

/-- A path from the root leads to the same URL from everywhere. -/
theorem IsRooted.leads (h : IsRooted reference) : ∃ url, IsBelow url ∧
    ∀ base, IsWritten base → IsBelow base → base.join? reference = some url := by
  obtain ⟨-, rest, hclean, hslash, hback⟩ := h
  have hsingle : (rest.head?.map Url.isSlash).getD false = false := by
    cases rest with
    | nil => rfl
    | cons c more =>
        have hc : c ≠ '/' := fun heq => hslash (by rw [heq]; rfl)
        have hd : c ≠ '\\' := fun heq => hback (by rw [heq]; rfl)
        simp [Url.isSlash, hc, hd]
  refine ⟨Url.withTail { root with path := Url.extendPath .special ['/'] (Url.upToQuery rest) }
    ('/' :: rest), ⟨rfl, rfl⟩, fun base hwritten hbelow => ?_⟩
  unfold Url.join? Url.readAgainst?
  rw [hclean]
  show Url.withoutScheme? (some base) ('/' :: rest) = _
  rw [withoutScheme?_below hwritten hbelow (by simp), Url.readRelative?_slash rfl hsingle,
    hbelow.kind]
  unfold Url.withTail Url.kind
  rw [hbelow.1, hbelow.2]

/-- A path from the root joins to every relative scope as it does at the root. -/
theorem join_isRooted {base : Url} (h : IsRooted reference) (hscope : Url.read? scope = none)
    (hbase : base? scope = some base) : join scope reference = join "" reference := by
  have hhead := h.1
  have hne : reference ≠ "" := by
    rintro rfl
    cases hhead
  have hhash : reference.toList.head? ≠ some '#' := by
    rw [hhead]
    simp
  have hrooted : ∀ scope, isRooted scope reference = true := by
    intro scope
    unfold isRooted
    rw [hhead, Bool.or_eq_true]
    exact .inr (beq_self_eq_true _)
  obtain ⟨url, hbelow, hleads⟩ := h.leads
  have hjoin : ∀ {scope base}, base? scope = some base →
      joinRelative scope reference = String.ofList (url.path ++ url.tailText) := by
    intro scope base hbase
    obtain ⟨hscope, hwritten, hbelow'⟩ := base?_eq_some hbase
    have hread := hleads base hwritten hbelow'
    rw [joinRelative_isBelow hscope hread (hwritten.join? hread) hbelow, hrooted]
    rfl
  cases hreference : Url.read? reference with
  | some url => rw [join_of_read? hreference, join_of_read? hreference]
  | none =>
      rw [join_relative hne hscope hreference hhash, join_relative hne rfl hreference hhash,
        hjoin hbase, hjoin base?_root]

/-! ## Other paths -/

/-- A relative path in its written form: at the root it joins to itself. -/
structure IsPlain (reference : String) : Prop where
  starts : ∃ c rest, reference.toList = c :: rest ∧ Url.isSlash c = false ∧ Url.endsPath c = false
  clean : Url.cleaned reference = reference.toList
  noScheme : Url.cutScheme? reference.toList = none
  joins : join "" reference = reference

theorem IsPlain.read? (h : IsPlain reference) : Url.read? reference = none := by
  unfold Url.read? Url.readAgainst?
  rw [h.clean]
  dsimp only
  rw [h.noScheme]
  rfl

theorem dropSegment_isOpen {path : List Char} (h : IsPath .special path) :
    Url.IsOpen .special (Url.dropSegment .special path) := by
  rcases Url.dropSegment_isBase h with hopen | ⟨hkind, -⟩
  · exact hopen
  · cases hkind

/-- A relative path is read against the directory of its base. -/
theorem IsPlain.join? (h : IsPlain reference) {base : Url} (hwritten : IsWritten base)
    (hbelow : IsBelow base) : base.join? reference = some (Url.withTail { base with
      path := Url.extendPath .special (Url.dropSegment .special base.path)
        (Url.upToQuery reference.toList) } reference.toList) := by
  obtain ⟨c, rest, htext, hslash, hends⟩ := h.starts
  have hopen := dropSegment_isOpen (hbelow.isPath hwritten)
  have hhash : reference.toList.head? ≠ some '#' := by
    rw [htext]
    rintro heq
    cases heq
    cases hends
  unfold Url.join? Url.readAgainst?
  rw [h.clean]
  dsimp only
  rw [h.noScheme]
  dsimp only
  rw [withoutScheme?_below hwritten hbelow hhash, htext, Url.readRelative?_segment hslash hends
    (by rw [hbelow.kind]; exact hopen.ne_nil), hbelow.kind]

theorem IsPlain.isRooted (h : IsPlain reference) (scope : String) :
    isRooted scope reference = (scope.toList.head? == some '/') := by
  obtain ⟨c, rest, htext, hslash, -⟩ := h.starts
  have hother : (reference.toList.head? == some '/') = false := by
    rw [htext, beq_eq_false_iff_ne]
    rintro heq
    cases heq
    cases hslash
  rw [Uri.isRooted, hother, Bool.or_false]

theorem IsPlain.joinRelative (h : IsPlain reference) {base : Url} (hbase : base? scope = some base) :
    ∃ tail, Url.queryAndFragment .special reference.toList = tail ∧
      Uri.joinRelative scope reference = String.ofList (shown (scope.toList.head? == some '/')
        (Url.extendPath .special (Url.dropSegment .special base.path)
          (Url.upToQuery reference.toList)) ++
        (Url.queryText tail.1 ++ Url.fragmentText tail.2)) := by
  obtain ⟨hscope, hwritten, hbelow⟩ := base?_eq_some hbase
  have hread := h.join? hwritten hbelow
  refine ⟨_, rfl, ?_⟩
  rw [joinRelative_isBelow hscope hread (hwritten.join? hread) hbelow, h.isRooted]
  unfold Url.tailText Url.withTail
  have hkind : ∀ path, Url.kind { base with path := path } = .special := fun _ => hbelow.kind
  rw [hkind]

theorem IsPlain.join (h : IsPlain reference) (hscope : Url.read? scope = none) :
    Uri.join scope reference = Uri.joinRelative scope reference := by
  obtain ⟨c, rest, htext, -, hends⟩ := h.starts
  refine join_relative ?_ hscope h.read? ?_
  · rintro rfl
    cases htext
  · rw [htext]
    rintro heq
    cases heq
    cases hends

/-- A relative path is segments, query and fragment, each as it is written. -/
theorem IsPlain.segments (h : IsPlain reference) :
    ∃ first segments tail, Url.IsSegment .special first ∧
      (∀ segment ∈ segments, Url.IsSegment .special segment) ∧
      Url.queryAndFragment .special reference.toList = tail ∧
      Url.upToQuery reference.toList = first ++ Url.slashed segments ∧
      reference.toList = first ++ Url.slashed segments ++
        (Url.queryText tail.1 ++ Url.fragmentText tail.2) := by
  obtain ⟨tail, htail, hjoin⟩ := h.joinRelative base?_root
  have hpath : Url.IsWhole .special
      (Url.extendPath .special ['/'] (Url.upToQuery reference.toList)) :=
    Url.extendPath_isWhole (.inl Url.isOpen_root) _
  have hroot : Url.dropSegment .special root.path = ['/'] := by decide
  rw [← h.join rfl, h.joins, hroot] at hjoin
  obtain ⟨first, segments, hfirst, hall, hslashed⟩ := hpath
  have htext : reference.toList = first ++ Url.slashed segments ++
      (Url.queryText tail.1 ++ Url.fragmentText tail.2) := by
    have hlist := congrArg String.toList hjoin
    rw [String.toList_ofList, hslashed] at hlist
    exact hlist
  have hwhole : ∀ c ∈ first ++ Url.slashed segments, Url.endsPath c = false := fun c hc =>
    IsPath.whole ⟨first, segments, hfirst, hall, rfl⟩ c (List.mem_cons_of_mem '/' hc)
  have hstarts : Url.StartsTail (Url.queryText tail.1 ++ Url.fragmentText tail.2) :=
    Url.startsTail_tailText ⟨[], none, [], tail.1, tail.2⟩
  refine ⟨first, segments, tail, hfirst, hall, htail, ?_, htext⟩
  rw [htext]
  exact Url.upToQuery_append hwhole hstarts

/-- A relative path joins to a relative scope by coming behind its directory. -/
theorem join_isPlain {directory : List Char} (h : IsPlain reference)
    (hscope : Url.read? scope = none) (hdirectory : directory? scope = some directory) :
    Uri.join scope reference = String.ofList (directory ++ reference.toList) := by
  obtain ⟨base, hbase, rfl⟩ := Option.map_eq_some_iff.1 hdirectory
  obtain ⟨-, hwritten, hbelow⟩ := base?_eq_some hbase
  have hopen := dropSegment_isOpen (hbelow.isPath hwritten)
  obtain ⟨first, segments, tail, hfirst, hall, htail, hup, htext⟩ := h.segments
  obtain ⟨tail', htail', hjoin⟩ := h.joinRelative hbase
  obtain rfl : tail = tail' := htail.symm.trans htail'
  have hextend : Url.extendPath .special (Url.dropSegment .special base.path)
      (first ++ Url.slashed segments) =
        Url.dropSegment .special base.path ++ first ++ Url.slashed segments :=
    Url.takeSegments_slashed hopen hfirst hall nofun
  have hshown : ∀ rooted, shown rooted (Url.dropSegment .special base.path ++ first ++
      Url.slashed segments) = shown rooted (Url.dropSegment .special base.path) ++
        (first ++ Url.slashed segments) := by
    intro rooted
    obtain ⟨c, rest, hcons⟩ := List.exists_cons_of_ne_nil hopen.ne_nil
    rw [hcons]
    cases rooted <;> simp [shown]
  rw [h.join hscope, hjoin, hup, hextend, htext, hshown, List.append_assoc]

example : directory? "api/openapi.yaml" = some "api/".toList ∧
    directory? "/srv/api/openapi.yaml" = some "/srv/api/".toList ∧
    directory? "openapi.yaml" = some [] := by decide +kernel

/-! ## Fragments -/

/-- The document of a URI. -/
def document (uri : String) : List Char := (splitFragment uri.toList).1

theorem splitFragment_append {front : List Char} (h : '#' ∉ front) (back : List Char) :
    splitFragment (front ++ '#' :: back) = (front, back) := by
  unfold splitFragment
  rw [cutAt?_append h]
  rfl

theorem splitFragment_of_not_mem {text : List Char} (h : '#' ∉ text) :
    splitFragment text = (text, []) := by
  unfold splitFragment
  rw [cutAt?_of_not_mem h]
  rfl

theorem hash_not_mem_document (uri : String) : '#' ∉ document uri := by
  unfold document
  by_cases h : '#' ∈ uri.toList
  · obtain ⟨front, back, heq, hfront⟩ := List.eq_append_cons_of_mem h
    rw [heq, splitFragment_append hfront]
    exact hfront
  · rw [splitFragment_of_not_mem h]
    exact h

/-- What a fragment was taken off has none. -/
theorem defrag_document (uri : String) : (defrag (defrag uri).1).1 = (defrag uri).1 := by
  show String.ofList (splitFragment (String.ofList (document uri)).toList).1 = _
  rw [String.toList_ofList, splitFragment_of_not_mem (hash_not_mem_document uri)]
  rfl

/-- No part of a URL before its fragment has a hash. -/
theorem document_text (h : IsWritten url) :
    document url.text = url.scheme ++ ':' :: (url.beforeQuery ++ Url.queryText url.query) := by
  have hhash : '#' ∉ url.scheme ++ ':' :: (url.beforeQuery ++ Url.queryText url.query) := by
    rw [Url.beforeQuery_eq, List.mem_append, List.mem_cons, List.mem_append, List.mem_append]
    rintro (hscheme | hcolon | (hbefore | hpath) | hquery)
    · cases h.scheme.all '#' hscheme
    · cases hcolon
    · cases h.beforePath_whole '#' hbefore
    · cases h.path_whole '#' hpath
    · cases hsome : url.query with
      | none =>
          rw [hsome] at hquery
          cases hquery
      | some query =>
          rw [hsome] at hquery
          rcases List.mem_cons.1 hquery with heq | hmem
          · cases heq
          · have hplain := h.query query hsome '#' hmem
            rw [Url.inQuery_hash] at hplain
            cases hplain
  unfold document
  rw [Url.text_eq, String.toList_ofList]
  unfold Url.tailText
  cases hfragment : url.fragment with
  | none =>
      rw [show Url.fragmentText none = [] from rfl, List.append_nil, splitFragment_of_not_mem hhash]
  | some fragment =>
      have hsplit := splitFragment_append hhash fragment
      rw [List.append_assoc, List.cons_append, List.append_assoc] at hsplit
      show (splitFragment (url.scheme ++ ':' :: (url.beforeQuery ++
        (Url.queryText url.query ++ '#' :: fragment)))).1 = _
      rw [hsplit]

/-- A fragment stays in the document of its scope. -/
theorem document_join_fragment (h : IsFragment reference)
    (hscope : ∀ url, Url.read? scope = some url → url.text = scope) :
    document (Uri.join scope reference) = document scope := by
  have hread := read?_fragment h
  have hne : reference ≠ "" := by
    rintro rfl
    obtain ⟨fragment, heq⟩ := h
    cases heq
  cases hurl : Url.read? scope with
  | none =>
      obtain ⟨fragment, heq⟩ := h
      have hjoin : Uri.join scope reference = String.ofList (document scope ++ '#' :: fragment) := by
        unfold Uri.join
        rw [not_isEmpty hne, hread, hurl, heq]
        rfl
      rw [hjoin, document, String.toList_ofList, splitFragment_append (hash_not_mem_document scope)]
  | some url =>
      have hwritten := Url.isWritten_of_read? hurl
      obtain ⟨rest, hclean⟩ := cleaned_fragment h
      have hjoin : resolved? scope reference = some (url.withFragment ('#' :: rest)) := by
        unfold resolved?
        rw [hread, hurl]
        show Url.readAgainst? (some url) reference = _
        unfold Url.readAgainst?
        rw [hclean]
        rfl
      rw [join_of_resolved? hne hjoin, document_text (hwritten.withFragment _), ← hscope url hurl,
        document_text hwritten]
      rfl

end Uri

end SchemaGraph
