import SchemaGraph.Proofs.Url.Hosts
import SchemaGraph.Proofs.Url.Paths

set_option autoImplicit false

/-! # URLs in their written form

What is read as a URL is in written form, part by part: the scheme is in lower case, user, query
and fragment are escaped, a default port is left out, and the path has no dots
(`readAgainst?_isWritten`). The host is whatever hosts are read as.
-/

namespace SchemaGraph

namespace Url

/-! ## Schemes -/

/-- A character of a scheme. -/
def inScheme (c : Char) : Bool :=
  Ascii.isLetter c || Ascii.isDigit c || c == '+' || c == '-' || c == '.'

/-- A scheme in lower case. -/
structure IsScheme (scheme : List Char) : Prop where
  starts : ∃ c rest, scheme = c :: rest ∧ Ascii.isLetter c = true
  all : ∀ c ∈ scheme, inScheme c = true
  lower : ∀ c ∈ scheme, Ascii.toLower c = c

theorem isUpper_range {c : Char} (h : Ascii.isUpper c = true) : 0x41 ≤ c.toNat ∧ c.toNat ≤ 0x5a := by
  have hupper : 'A'.toNat = 0x41 ∧ 'Z'.toNat = 0x5a := by decide
  simp only [Ascii.isUpper, Bool.and_eq_true, decide_eq_true_eq, Ascii.char_le_iff] at h
  omega

/-- Every upper case letter has its lower case form. -/
theorem toLower_of_isUpper {c : Char} (h : Ascii.isUpper c = true) :
    Ascii.isLower (Ascii.toLower c) = true ∧ Ascii.isUpper (Ascii.toLower c) = false := by
  have hrange := isUpper_range h
  have hall : ∀ n < 26, Ascii.isLower (Char.ofNat (0x41 + n + 32)) = true ∧
      Ascii.isUpper (Char.ofNat (0x41 + n + 32)) = false := by decide
  have hshift : Ascii.toLower c = Char.ofNat (0x41 + (c.toNat - 0x41) + 32) := by
    unfold Ascii.toLower
    rw [if_pos h]
    congr 1
    omega
  rw [hshift]
  exact hall _ (by omega)

theorem toLower_toLower (c : Char) : Ascii.toLower (Ascii.toLower c) = Ascii.toLower c := by
  cases h : Ascii.isUpper c with
  | true =>
      have hlower := (toLower_of_isUpper h).2
      rw [Ascii.toLower, hlower]
      rfl
  | false =>
      have hsame : Ascii.toLower c = c := by
        unfold Ascii.toLower
        rw [h]
        rfl
      rw [hsame, hsame]

theorem inScheme_toLower {c : Char} (h : inScheme c = true) : inScheme (Ascii.toLower c) = true := by
  cases hupper : Ascii.isUpper c with
  | true =>
      have hlower := (toLower_of_isUpper hupper).1
      simp [inScheme, Ascii.isLetter, hlower]
  | false =>
      unfold Ascii.toLower
      rw [hupper]
      exact h

theorem isLetter_toLower {c : Char} (h : Ascii.isLetter c = true) :
    Ascii.isLetter (Ascii.toLower c) = true := by
  cases hupper : Ascii.isUpper c with
  | true =>
      have hlower := (toLower_of_isUpper hupper).1
      simp [Ascii.isLetter, hlower]
  | false =>
      unfold Ascii.toLower
      rw [hupper]
      exact h

theorem cutScheme?_cons (c : Char) (rest : List Char) : cutScheme? (c :: rest) =
    if Ascii.isLetter c then
      match (c :: rest).drop ((c :: rest).takeWhile inScheme).length with
      | ':' :: behind => some (((c :: rest).takeWhile inScheme).map Ascii.toLower, behind)
      | _ => none
    else none := rfl

theorem cutScheme?_isScheme {text scheme rest : List Char}
    (h : cutScheme? text = some (scheme, rest)) :
    IsScheme scheme ∧ ∃ front, text = front ++ rest := by
  cases text with
  | nil => cases h
  | cons c more =>
      rw [cutScheme?_cons] at h
      split at h
      · rename_i hletter
        split at h
        · rename_i found hdrop
          cases h
          have hstart : inScheme c = true := by simp [inScheme, hletter]
          have htake : (c :: more).takeWhile inScheme = c :: more.takeWhile inScheme :=
            List.takeWhile_cons_of_pos hstart
          refine ⟨⟨⟨_, _, by rw [htake]; rfl, isLetter_toLower hletter⟩, ?_, ?_⟩, ?_⟩
          · intro d hd
            obtain ⟨e, he, rfl⟩ := List.mem_map.1 hd
            exact inScheme_toLower (List.all_eq_true.1 List.all_takeWhile e he)
          · intro d hd
            obtain ⟨e, -, rfl⟩ := List.mem_map.1 hd
            exact toLower_toLower e
          · refine ⟨(c :: more).take ((c :: more).takeWhile inScheme).length ++ [':'], ?_⟩
            rw [List.append_assoc, List.singleton_append, ← hdrop, List.take_append_drop]
        · cases h
      · cases h

/-! ## Authorities -/

/-- The password behind its colon, if there is one. -/
def passwordText (password : List Char) : List Char :=
  if password.isEmpty then [] else ':' :: password

/-- The user of an authority in its written form: escaped, and without a colon if there is no
password. -/
def IsUser (user : List Char) : Prop :=
  user = [] ∨ ∃ name password, Percent.IsEncoded inUser name ∧ Percent.IsEncoded inUser password ∧
    ¬(name = [] ∧ password = []) ∧ user = name ++ passwordText password ++ ['@']

theorem isUser_userText (user : List Char) : IsUser (userText user) := by
  unfold userText
  generalize (cutAt? ':' user).getD (user, []) = found
  obtain ⟨name, password⟩ := found
  dsimp only
  have hname : Percent.IsEncoded inUser (Percent.encode inUser name) :=
    Percent.isEncoded_encode inUser_escapes
  cases password with
  | nil =>
      cases hempty : (Percent.encode inUser name).isEmpty with
      | true => exact .inl rfl
      | false =>
          refine .inr ⟨_, [], hname, by simp [Percent.IsEncoded], fun h => ?_, ?_⟩
          · rw [h.1] at hempty
            cases hempty
          · simp [passwordText]
  | cons c rest =>
      have hne : Percent.encode inUser (c :: rest) ≠ [] := Percent.encode_ne_nil (by simp)
      refine .inr ⟨_, _, hname, Percent.isEncoded_encode inUser_escapes, fun h => hne h.2, ?_⟩
      have hpassword : (Percent.encode inUser (c :: rest)).isEmpty = false := by
        simpa using hne
      simp [passwordText, hpassword]

/-- An authority in its written form. Of the host it is known where it ends. -/
structure IsAuthority (scheme : List Char) (authority : Authority) : Prop where
  user : IsUser authority.user
  host : Host.IsDelimited authority.host
  port : ∀ port, authority.port = some port → port < 0x10000 ∧ defaultPort? scheme ≠ some port
  bare : authority.host = [] → authority.user = [] ∧ authority.port = none

theorem isAuthority_fileUrl (scheme : List Char) {host : List Char} (h : Host.IsDelimited host) :
    IsAuthority scheme ⟨[], host, none⟩ :=
  ⟨.inl rfl, h, nofun, fun _ => ⟨rfl, rfl⟩⟩

theorem readPort?_port {scheme digits : List Char} {found : Option Nat}
    (h : readPort? scheme digits = some found) :
    (digits = [] → found = none) ∧
      ∀ port, found = some port → port < 0x10000 ∧ defaultPort? scheme ≠ some port := by
  unfold readPort? at h
  split at h
  · cases h
    exact ⟨fun _ => rfl, nofun⟩
  · rename_i hdigits
    refine ⟨fun hnil => absurd (by rw [hnil]; rfl) hdigits, ?_⟩
    split at h
    · dsimp only at h
      split at h
      · rename_i hbound
        intro port hport
        subst hport
        split at h
        · cases h
        · rename_i hdefault
          cases h
          refine ⟨hbound, fun heq => hdefault ?_⟩
          rw [heq]
          exact beq_self_eq_true _
      · cases h
    · cases h

end Url

namespace Host

theorem bracketed?_ne_nil {text host : List Char} (h : bracketed? text = some (some host)) :
    host ≠ [] := by
  unfold bracketed? at h
  split at h
  · have haddress := Option.some.inj h
    split at haddress
    · obtain ⟨groups, -, rfl⟩ := Option.map_eq_some_iff.1 haddress
      unfold longAddressText
      simp
    · cases haddress
  · cases h

theorem opaqueText?_ne_nil {text host : List Char} (h : opaqueText? text = some host)
    (hne : text ≠ []) : host ≠ [] := by
  unfold opaqueText? at h
  split at h
  · rename_i address hbracketed
    subst h
    exact bracketed?_ne_nil hbracketed
  · split at h
    · cases h
    · cases h
      exact Percent.encode_ne_nil hne

theorem special?_ne_nil {text host : List Char} (h : special? text = some host) : host ≠ [] := by
  unfold special? at h
  split at h
  · rename_i address hbracketed
    subst h
    exact bracketed?_ne_nil hbracketed
  · obtain ⟨domain, hdomain, h⟩ := Option.bind_eq_some_iff.1 h
    split at h
    · obtain ⟨address, -, rfl⟩ := Option.map_eq_some_iff.1 h
      simp [addressText, List.intercalate, List.intersperse]
    · cases h
      unfold asciiDomain? at hdomain
      dsimp only at hdomain
      split at hdomain
      · cases hdomain
      · obtain ⟨labels, -, hdomain⟩ := Option.bind_eq_some_iff.1 hdomain
        split at hdomain
        · cases hdomain
        · rename_i hempty
          cases hdomain
          simpa using hempty

end Host

namespace Url

theorem readAuthority?_isAuthority {scheme text : List Char} {kind : Kind} {authority : Authority}
    (h : readAuthority? scheme kind text = some authority) : IsAuthority scheme authority := by
  unfold readAuthority? at h
  generalize hcut : (cutAtLast? '@' text).getD ([], text) = found at h
  obtain ⟨user, rest⟩ := found
  dsimp only at h
  generalize cutHost false rest = hostAndPort at h
  obtain ⟨hostText, portText⟩ := hostAndPort
  dsimp only at h
  split at h
  · cases h
  · rename_i hbare
    obtain ⟨host, port, hhost, hdelimited, hport, rfl⟩ : ∃ host port, (host = [] → hostText = []) ∧
        Host.IsDelimited host ∧ readPort? scheme (portText.drop 1) = some port ∧
        authority = ⟨userText user, host, port⟩ := by
      split at h
      · obtain ⟨host, hhost, h⟩ := Option.bind_eq_some_iff.1 h
        obtain ⟨port, hport, h⟩ := Option.bind_eq_some_iff.1 h
        cases h
        exact ⟨host, port, fun hnil => absurd hnil (Host.special?_ne_nil hhost),
          Host.isDelimited_special? hhost, hport, rfl⟩
      · obtain ⟨host, hhost, h⟩ := Option.bind_eq_some_iff.1 h
        obtain ⟨port, hport, h⟩ := Option.bind_eq_some_iff.1 h
        cases h
        refine ⟨host, port, fun hnil => ?_, Host.isDelimited_opaqueText? hhost, hport, rfl⟩
        by_cases hempty : hostText = []
        · exact hempty
        · exact absurd hnil (Host.opaqueText?_ne_nil hhost hempty)
    have hfound := readPort?_port hport
    refine ⟨isUser_userText user, hdelimited, hfound.2, fun hnil => ?_⟩
    have hempty : hostText = [] := hhost hnil
    subst hempty
    simp only [List.isEmpty_nil, Bool.true_and, Bool.or_eq_true, not_or, Bool.not_eq_true,
      Bool.not_eq_false'] at hbare
    obtain ⟨⟨-, huser⟩, hportText⟩ := hbare
    have hmem : '@' ∉ text := by simpa using huser
    rw [cutAtLast?_of_not_mem hmem] at hcut
    cases hcut
    refine ⟨rfl, hfound.1 ?_⟩
    have hnone : portText = [] := by simpa using hportText
    rw [hnone]
    rfl

/-! ## Query and fragment -/

/-- The fragment that a text starts with. -/
def fragmentOf? (text : List Char) : Option (List Char) :=
  match text with
  | '#' :: fragment => some (Percent.encode inFragment fragment)
  | _ => none

theorem fragmentOf?_isEncoded {text fragment : List Char} (h : fragmentOf? text = some fragment) :
    Percent.IsEncoded inFragment fragment := by
  unfold fragmentOf? at h
  split at h
  · cases h
    exact Percent.isEncoded_encode inFragment_escapes
  · cases h

theorem queryAndFragment_eq (kind : Kind) (text : List Char) : queryAndFragment kind text =
    match text.dropWhile fun c => !endsPath c with
    | '?' :: rest => (some (Percent.encode (inQuery kind) (rest.takeWhile (· != '#'))),
        fragmentOf? (rest.dropWhile (· != '#')))
    | rest => (none, fragmentOf? rest) := rfl

theorem queryAndFragment_isEncoded (kind : Kind) (text : List Char) :
    (∀ q, (queryAndFragment kind text).1 = some q → Percent.IsEncoded (inQuery kind) q) ∧
      ∀ f, (queryAndFragment kind text).2 = some f → Percent.IsEncoded inFragment f := by
  rw [queryAndFragment_eq]
  split
  · refine ⟨fun q hq => ?_, fun f => fragmentOf?_isEncoded⟩
    cases hq
    exact Percent.isEncoded_encode (inQuery_escapes kind)
  · exact ⟨nofun, fun f => fragmentOf?_isEncoded⟩

/-! ## Whole URLs -/

/-- No blank stands at the end. -/
def EndsPlainly (text : List Char) : Prop := text.getLast? ≠ some ' '

theorem EndsPlainly.suffix {front text : List Char} (h : EndsPlainly (front ++ text)) :
    EndsPlainly text := by
  intro hlast
  refine h ?_
  rw [List.getLast?_append, hlast]
  rfl

theorem endsPlainly_of_not_mem {text : List Char} (h : ' ' ∉ text) : EndsPlainly text :=
  fun hlast => h (List.mem_of_getLast? hlast)

theorem IsPath.mem {kind : Kind} {path : List Char} (h : IsPath kind path) {c : Char}
    (hc : c ∈ path) : c = '/' ∨ inPath c = false ∧ endsSegment kind c = false := by
  obtain ⟨segments, hall, rfl⟩ := h.all
  obtain ⟨segment, hsegment, hc⟩ := List.mem_flatMap.1 hc
  rcases List.mem_cons.1 hc with rfl | hc
  · exact .inl rfl
  · exact .inr ⟨(hall segment hsegment).encoded c hc, (hall segment hsegment).whole c hc⟩

theorem IsPath.endsPlainly {kind : Kind} {path : List Char} (h : IsPath kind path) :
    EndsPlainly path := by
  refine endsPlainly_of_not_mem fun hblank => ?_
  rcases h.mem hblank with hslash | ⟨hplain, -⟩
  · cases hslash
  · cases hplain

/-- Authority and path in their written form, by the kind of the scheme. -/
inductive Place (scheme : List Char) : Option Authority → List Char → Prop where
  | special {authority : Authority} {path : List Char} (kind : kindOf scheme = .special)
      (authority_written : IsAuthority scheme authority) (path_written : IsPath .special path) :
      Place scheme (some authority) path
  | file {host path : List Char} (kind : kindOf scheme = .file)
      (host_written : Host.IsDelimited host) (path_written : IsFilePath path) :
      Place scheme (some ⟨[], host, none⟩) path
  | other {authority : Authority} {path : List Char} (kind : kindOf scheme = .other)
      (authority_written : IsAuthority scheme authority)
      (path_written : path = [] ∨ IsPath .other path) : Place scheme (some authority) path
  | rooted {path : List Char} (kind : kindOf scheme = .other) (path_written : IsPath .other path) :
      Place scheme none path
  | opaquePath {path : List Char} (kind : kindOf scheme = .other) (start : path.head? ≠ some '/')
      (encoded : Percent.IsEncoded Host.isControl path)
      (whole : ∀ c ∈ path, endsPath c = false) : Place scheme none path

/-- A URL in its written form. -/
structure IsWritten (url : Url) : Prop where
  scheme : IsScheme url.scheme
  place : Place url.scheme url.authority url.path
  query : ∀ query, url.query = some query → Percent.IsEncoded (inQuery url.kind) query
  fragment : ∀ fragment, url.fragment = some fragment → Percent.IsEncoded inFragment fragment
  ends : url.query = none → url.fragment = none → EndsPlainly url.path

namespace IsWritten

variable {url : Url}

theorem withFragment (h : IsWritten url) (text : List Char) :
    IsWritten (url.withFragment text) where
  scheme := h.scheme
  place := h.place
  query := h.query
  fragment fragment hfragment := by
    cases hfragment
    exact Percent.isEncoded_encode inFragment_escapes
  ends _ hfragment := by cases hfragment

theorem withoutFragment (h : IsWritten url) (hends : EndsPlainly url.path) :
    IsWritten { url with fragment := none } where
  scheme := h.scheme
  place := h.place
  query := h.query
  fragment _ hfragment := by cases hfragment
  ends _ _ := hends

end IsWritten

theorem endsPath_of_dropWhile {text tail : List Char} {c : Char}
    (h : text.dropWhile (fun c => !endsPath c) = c :: tail) : c = '?' ∨ c = '#' := by
  have hhead : (text.dropWhile fun c => !endsPath c).head? = some c := by rw [h]; rfl
  have hnot := List.head?_dropWhile_not (fun c => !endsPath c) text
  rw [hhead] at hnot
  have hends : endsPath c = true := by simpa using hnot
  exact (Bool.or_eq_true_iff.1 hends).imp eq_of_beq eq_of_beq

/-- What has neither query nor fragment is a path. -/
theorem upToQuery_of_queryAndFragment {kind : Kind} {text : List Char}
    (hquery : (queryAndFragment kind text).1 = none)
    (hfragment : (queryAndFragment kind text).2 = none) : upToQuery text = text := by
  have hsplit : upToQuery text ++ text.dropWhile (fun c => !endsPath c) = text :=
    List.takeWhile_append_dropWhile
  rw [queryAndFragment_eq] at hquery hfragment
  cases htail : text.dropWhile fun c => !endsPath c with
  | nil => rwa [htail, List.append_nil] at hsplit
  | cons c rest =>
      rw [htail] at hquery hfragment
      rcases endsPath_of_dropWhile htail with rfl | rfl
      · cases hquery
      · cases hfragment

theorem isWritten_withTail {url : Url} (hscheme : IsScheme url.scheme)
    (hplace : Place url.scheme url.authority url.path) (text : List Char)
    (hends : upToQuery text = text → EndsPlainly url.path) : IsWritten (url.withTail text) := by
  obtain ⟨hquery, hfragment⟩ := queryAndFragment_isEncoded url.kind text
  exact ⟨hscheme, hplace, hquery, hfragment,
    fun hnone hnone' => hends (upToQuery_of_queryAndFragment hnone hnone')⟩

/-! ## Reading -/

namespace Place

variable {scheme path : List Char} {authority : Option Authority}

/-- The path of a URL is in written form, unless it is opaque or missing. -/
theorem isPath (h : Place scheme authority path) :
    path = [] ∨ IsPath (kindOf scheme) path ∨ authority = none ∧ path.head? ≠ some '/' := by
  cases h with
  | special hkind _ hpath => exact .inr (.inl (hkind ▸ hpath))
  | file hkind _ hpath =>
      exact .inr (.inl (hkind ▸ hpath.isPath))
  | other hkind _ hpath => exact hpath.imp id fun hpath => .inl (hkind ▸ hpath)
  | rooted hkind hpath => exact .inr (.inl (hkind ▸ hpath))
  | opaquePath _ hstart _ _ => exact .inr (.inr ⟨rfl, hstart⟩)

theorem isPath_file (h : Place scheme authority path) (hkind : kindOf scheme = .file) :
    IsPath .file path := by
  have hother : ∀ {kind}, kindOf scheme = kind → kind ≠ .file → IsPath .file path := by
    intro kind hkind' hne
    exact absurd (hkind'.symm.trans hkind) hne
  cases h with
  | special hkind' _ _ => exact hother hkind' nofun
  | file _ _ hpath => exact hpath.isPath
  | other hkind' _ _ => exact hother hkind' nofun
  | rooted hkind' _ => exact hother hkind' nofun
  | opaquePath hkind' _ _ _ => exact hother hkind' nofun

/-- Only URLs of other schemes have an opaque path. -/
theorem isRooted_of_kind {url : Url} (h : Place url.scheme url.authority url.path)
    (hkind : kindOf url.scheme ≠ .other) : url.hasOpaquePath = false := by
  have hauthority : url.authority.isNone = false := by
    generalize url.authority = authority at h
    cases h with
    | special _ _ _ => rfl
    | file _ _ _ => rfl
    | other _ _ _ => rfl
    | rooted hother _ => exact absurd hother hkind
    | opaquePath hother _ _ _ => exact absurd hother hkind
  rw [hasOpaquePath, hauthority, Bool.false_and]

/-- The path of a URL may be replaced by any other. -/
theorem replace (h : Place scheme authority path) {path' : List Char}
    (hpath' : IsWhole (kindOf scheme) path') : Place scheme authority path' := by
  cases h with
  | special hkind hauthority _ =>
      rw [hkind] at hpath'
      exact .special hkind hauthority hpath'
  | file hkind hhost _ =>
      rw [hkind] at hpath'
      exact .file hkind hhost hpath'
  | other hkind hauthority _ =>
      rw [hkind] at hpath'
      exact .other hkind hauthority (.inr hpath')
  | rooted hkind _ =>
      rw [hkind] at hpath'
      exact .rooted hkind hpath'
  | opaquePath hkind _ _ _ =>
      rw [hkind] at hpath'
      exact .rooted hkind hpath'

end Place

/-- Another path is read against a URL. -/
theorem IsWritten.withPath {url : Url} (h : IsWritten url) {path : List Char}
    (hpath : IsWhole url.kind path) (text : List Char) :
    IsWritten (Url.withTail { url with path := path } text) := by
  have hplace : Place url.scheme url.authority path := h.place.replace hpath
  exact @isWritten_withTail { url with path := path } h.scheme hplace text
    fun _ => hpath.isPath.endsPlainly

theorem afterSlashes?_isWritten {scheme text : List Char} {url : Url} (hscheme : IsScheme scheme)
    (hkind : kindOf scheme ≠ .file) (h : afterSlashes? scheme text = some url) : IsWritten url := by
  unfold afterSlashes? at h
  obtain ⟨authority, hauthority, h⟩ := Option.bind_eq_some_iff.1 h
  cases h
  have hwritten := readAuthority?_isAuthority hauthority
  generalize text.dropWhile (fun c => !endsAuthority (kindOf scheme) c) = rest
  have hpath : (kindOf scheme).isSpecial = true ∨ upToQuery rest ≠ [] →
      IsWhole (kindOf scheme) (pathFromStart (kindOf scheme) (upToQuery rest)) :=
    pathFromStart_isWhole
  cases hkind' : kindOf scheme with
  | file => exact absurd hkind' hkind
  | special =>
      rw [hkind'] at hpath
      have hplace : Place scheme (some authority) _ := .special hkind' hwritten (hpath (.inl rfl))
      exact isWritten_withTail hscheme hplace rest fun _ => (hpath (.inl rfl)).isPath.endsPlainly
  | other =>
      rw [hkind'] at hpath
      by_cases hempty : upToQuery rest = []
      · rw [hempty]
        exact isWritten_withTail hscheme (.other hkind' hwritten (.inl rfl)) rest fun _ => nofun
      · exact isWritten_withTail hscheme (.other hkind' hwritten (.inr (hpath (.inr hempty)))) rest
          fun _ => (hpath (.inr hempty)).isPath.endsPlainly

/-! ## Reading files -/

theorem isScheme_file : IsScheme fileScheme :=
  ⟨⟨'f', _, rfl, rfl⟩, List.all_eq_true.1 (by decide), by
    simp [fileScheme, Ascii.toLower, Ascii.isUpper]⟩

theorem isWritten_fileUrl {host path : List Char} (hhost : Host.IsDelimited host)
    (hpath : IsFilePath path) (text : List Char) : IsWritten ((fileUrl host path).withTail text) :=
  @isWritten_withTail (fileUrl host path) isScheme_file (.file rfl hhost hpath) text
    fun _ => hpath.isPath.endsPlainly

theorem isDelimited_nil : Host.IsDelimited [] := .plain (by simp)

theorem extendPath_root (text : List Char) : IsFilePath (extendPath .file ['/'] text) :=
  show IsWhole .file (extendPath .file ['/'] text) from extendPath_isWhole (.inl isOpen_root) text

theorem fileAfterSlashes?_isWritten {text : List Char} {url : Url}
    (h : fileAfterSlashes? text = some url) : IsWritten url := by
  unfold fileAfterSlashes? at h
  dsimp only at h
  split at h
  · cases h
    exact isWritten_fileUrl isDelimited_nil (extendPath_root _) text
  · generalize text.dropWhile (fun c => !(isSlash c || endsPath c)) = rest at h
    have hfound : ∀ host, Host.IsDelimited host → IsWritten ((fileUrl
        (if startsWithDriveLetter ((upToQuery rest).drop 1) then []
          else if host == "localhost".toList then [] else host)
        (pathFromStart .file (upToQuery rest))).withTail rest) := by
      intro host hhost
      have hpath : IsWhole .file (pathFromStart .file (upToQuery rest)) :=
        pathFromStart_isWhole (.inl rfl)
      refine isWritten_fileUrl ?_ hpath rest
      split
      · exact isDelimited_nil
      · split
        · exact isDelimited_nil
        · exact hhost
    split at h
    · cases h
      exact hfound [] isDelimited_nil
    · obtain ⟨host, hhost, h⟩ := Option.bind_eq_some_iff.1 h
      cases h
      exact hfound host (Host.isDelimited_special? hhost)

/-- A base that a file URL is read against. -/
def IsFileBase (base : Option Url) : Prop :=
  ∀ b, base = some b → IsWritten b ∧ b.scheme = fileScheme

theorem IsWritten.host {url : Url} (h : IsWritten url) :
    Host.IsDelimited ((url.authority.map Authority.host).getD []) := by
  have hplace := h.place
  generalize url.authority = authority at hplace
  cases hplace with
  | special _ hauthority _ => exact hauthority.host
  | file _ hhost _ => exact hhost
  | other _ hauthority _ => exact hauthority.host
  | rooted _ _ => exact isDelimited_nil
  | opaquePath _ _ _ _ => exact isDelimited_nil

theorem oneSlash_isWritten {base : Option Url} (hbase : IsFileBase base) {c : Char}
    (hc : endsSegment .file c = true) (hpath : endsPath c = false) (rest : List Char) :
    IsWritten (readFile?.oneSlash base (c :: rest)) := by
  have hup : upToQuery (c :: rest) = c :: upToQuery rest :=
    List.takeWhile_cons_of_pos (by rw [hpath]; rfl)
  have hroot : IsFilePath (extendPath .file [] (upToQuery (c :: rest))) := by
    rw [hup, extendPath_nil hc]
    exact extendPath_root _
  unfold readFile?.oneSlash
  dsimp only
  split
  · exact isWritten_fileUrl isDelimited_nil hroot _
  · split
    · exact isWritten_fileUrl isDelimited_nil hroot _
    · rename_i base
      split
      · rename_i drive hdrive
        have hpath : IsWhole .file (extendPath .file ('/' :: drive) (upToQuery (c :: rest))) :=
          extendPath_isWhole (.inr (driveOf?_endsWithDrive hdrive)) _
        exact isWritten_fileUrl isDelimited_nil hpath _
      · exact isWritten_fileUrl (hbase base rfl).1.host hroot _

theorem relative_isWritten {base : Option Url} (hbase : IsFileBase base) (text : List Char) :
    IsWritten (readFile?.relative base text) := by
  unfold readFile?.relative
  cases base with
  | none => exact isWritten_fileUrl isDelimited_nil (extendPath_root _) text
  | some base =>
      obtain ⟨hwritten, hscheme⟩ := hbase base rfl
      have hkind : kindOf base.scheme = .file := by rw [hscheme]; rfl
      have hpath : IsPath .file base.path := hwritten.place.isPath_file hkind
      dsimp only
      split
      · exact hwritten.withoutFragment hpath.endsPlainly
      · exact isWritten_withTail hwritten.scheme hwritten.place _ fun _ => hpath.endsPlainly
      · exact hwritten.withFragment _
      · split
        · exact isWritten_fileUrl isDelimited_nil (extendPath_root _) text
        · have hwhole : IsWhole .file (extendPath .file (dropSegment .file base.path)
            (upToQuery text)) := extendPath_isWhole (dropSegment_isBase hpath) _
          refine hwritten.withPath ?_ text
          show IsWhole (kindOf base.scheme) _
          rw [hkind]
          exact hwhole

theorem readFile?_isWritten {base : Option Url} (hbase : IsFileBase base) {text : List Char}
    {url : Url} (h : readFile? base text = some url) : IsWritten url := by
  have hslash : ∀ c, isSlash c = true → endsSegment .file c = true ∧ endsPath c = false := by
    intro c hc
    rcases Bool.or_eq_true_iff.1 hc with hc | hc
    · rw [eq_of_beq hc]
      decide
    · rw [eq_of_beq hc]
      decide
  unfold readFile? at h
  split at h
  · rename_i c d rest
    split at h
    · exact fileAfterSlashes?_isWritten h
    · split at h
      · rename_i hc
        cases h
        exact oneSlash_isWritten hbase (hslash c hc).1 (hslash c hc).2 _
      · cases h
        exact relative_isWritten hbase _
  · rename_i c
    split at h
    · rename_i hc
      cases h
      exact oneSlash_isWritten hbase (hslash c hc).1 (hslash c hc).2 _
    · cases h
      exact relative_isWritten hbase _
  · cases h
    exact relative_isWritten hbase _

/-! ## Reading everything -/

theorem readRelative?_isWritten {base : Url} (hbase : IsWritten base) (hkind : base.kind ≠ .file)
    (hrooted : base.hasOpaquePath = false) {text : List Char} {url : Url}
    (h : readRelative? base text = some url) : IsWritten url := by
  have hpath : base.path = [] ∨ IsPath base.kind base.path := by
    rcases hbase.place.isPath with hnil | hpath | ⟨hnone, hstart⟩
    · exact .inl hnil
    · exact .inr hpath
    · rw [hasOpaquePath, hnone, bne_iff_ne.2 hstart] at hrooted
      cases hrooted
  have hplain : EndsPlainly base.path := by
    rcases hpath with hnil | hpath
    · rw [hnil]
      nofun
    · exact hpath.endsPlainly
  have hroot : ∀ text, IsWhole base.kind (extendPath base.kind ['/'] text) :=
    extendPath_isWhole (.inl isOpen_root)
  unfold readRelative? at h
  split at h
  · cases h
    exact hbase.withoutFragment hplain
  · cases h
    exact isWritten_withTail hbase.scheme hbase.place _ fun _ => hplain
  · cases h
    exact hbase.withFragment _
  · split at h
    · split at h
      · exact afterSlashes?_isWritten hbase.scheme hkind h
      · cases h
        exact hbase.withPath (hroot _) _
    · cases h
      refine hbase.withPath ?_ _
      rcases hpath with hnil | hpath
      · have hempty : dropSegment base.kind base.path = [] := by
          rw [hnil]
          cases base.kind <;> rfl
        rw [hempty]
        exact hroot _
      · have hbase' := dropSegment_isBase hpath
        split
        · exact hroot _
        · exact extendPath_isWhole hbase' _

theorem encode_endsPlainly {text : List Char} (h : EndsPlainly text) :
    EndsPlainly (Percent.encode Host.isControl text) := by
  rcases List.eq_nil_or_concat text with rfl | ⟨front, last, rfl⟩
  · exact nofun
  · rw [List.concat_eq_append] at h ⊢
    have hlast : last ≠ ' ' := by
      rintro rfl
      exact h (by simp)
    have hblank : ' ' ∉ Percent.encode Host.isControl [last] :=
      Percent.not_mem_encode (by decide) (by simpa using hlast.symm)
    have hne : Percent.encode Host.isControl [last] ≠ [] := Percent.encode_ne_nil (by simp)
    have happend : Percent.encode Host.isControl (front ++ [last]) =
        Percent.encode Host.isControl front ++ Percent.encode Host.isControl [last] :=
      List.flatMap_append
    rw [happend]
    intro hends
    rw [List.getLast?_append, List.getLast?_eq_some_getLast hne, Option.some_or] at hends
    exact hblank (Option.some.inj hends ▸ List.getLast_mem hne)

theorem encode_head {text : List Char} (h : text.head? ≠ some '/') :
    (Percent.encode Host.isControl text).head? ≠ some '/' := by
  cases text with
  | nil => exact h
  | cons c rest =>
      have hc : c ≠ '/' := by
        rintro rfl
        exact h rfl
      have hslash : '/' ∉ Percent.encode Host.isControl [c] :=
        Percent.not_mem_encode (by decide) (by simpa using hc.symm)
      have hne : Percent.encode Host.isControl [c] ≠ [] := Percent.encode_ne_nil (by simp)
      have happend : Percent.encode Host.isControl (c :: rest) =
          Percent.encode Host.isControl [c] ++ Percent.encode Host.isControl rest :=
        @List.flatMap_append _ _ [c] rest _
      rw [happend, List.head?_append, List.head?_eq_some_head hne, Option.some_or]
      exact fun hhead => hslash (Option.some.inj hhead ▸ List.head_mem hne)

theorem upToQuery_whole {text : List Char} {c : Char} (h : c ∈ upToQuery text) :
    endsPath c = false := by
  have hall : (upToQuery text).all (fun c => !endsPath c) = true := List.all_takeWhile
  simpa using List.all_eq_true.1 hall c h

theorem scheme_of_kind {scheme : List Char} (h : kindOf scheme = .file) : scheme = fileScheme := by
  unfold kindOf at h
  split at h
  · rename_i hfile
    exact eq_of_beq hfile
  · split at h <;> cases h

theorem readOther?_isWritten {scheme text : List Char} (hscheme : IsScheme scheme)
    (hkind : kindOf scheme = .other) (hends : EndsPlainly text) {url : Url}
    (h : readOther? scheme text = some url) : IsWritten url := by
  unfold readOther? at h
  split at h
  · exact afterSlashes?_isWritten hscheme (by rw [hkind]; nofun) h
  · rename_i rest _
    cases h
    have hpath : IsWhole .other (extendPath .other ['/'] (upToQuery rest)) :=
      extendPath_isWhole (.inl isOpen_root) _
    exact isWritten_withTail hscheme (.rooted hkind hpath) _ fun _ => hpath.isPath.endsPlainly
  · rename_i hstart
    cases h
    have hwhole : ∀ c ∈ Percent.encode Host.isControl (upToQuery text), endsPath c = false := by
      intro c hc
      rcases Percent.mem_encode hc with ⟨hmem, -⟩ | hescape
      · exact upToQuery_whole hmem
      · have hplain : ∀ c ∈ Percent.escapes, endsPath c = false := eq_false_of_any (by decide)
        exact hplain c hescape
    have hhead : (upToQuery text).head? ≠ some '/' := by
      cases text with
      | nil => exact nofun
      | cons c rest =>
          intro hhead
          cases hc : endsPath c with
          | true =>
              rw [upToQuery, List.takeWhile_cons_of_neg (by simp [hc])] at hhead
              cases hhead
          | false =>
              rw [upToQuery, List.takeWhile_cons_of_pos (by simp [hc])] at hhead
              cases hhead
              exact hstart rest rfl
    have hplace : Place scheme none (Percent.encode Host.isControl (upToQuery text)) :=
      .opaquePath hkind (encode_head hhead) (Percent.isEncoded_encode isControl_escapes) hwhole
    refine isWritten_withTail hscheme hplace _ fun hup => ?_
    show EndsPlainly (Percent.encode Host.isControl (upToQuery text))
    rw [hup]
    exact encode_endsPlainly hends

theorem withoutScheme?_isWritten {base : Option Url} (hbase : ∀ b, base = some b → IsWritten b)
    {text : List Char} {url : Url} (h : withoutScheme? base text = some url) : IsWritten url := by
  unfold withoutScheme? at h
  obtain ⟨b, hb, h⟩ := Option.bind_eq_some_iff.1 h
  have hwritten := hbase b hb
  split at h
  · cases h
    exact hwritten.withFragment _
  · split at h
    · cases h
    · rename_i hopaque
      split at h
      · rename_i hkind
        refine readFile?_isWritten (fun b' hb' => ?_) h
        cases hb'
        exact ⟨hwritten, scheme_of_kind (eq_of_beq hkind)⟩
      · rename_i hkind
        exact readRelative?_isWritten hwritten (fun hfile => hkind (beq_iff_eq.2 hfile))
          (Bool.eq_false_iff.2 hopaque) h

theorem afterScheme?_isWritten {base : Option Url} (hbase : ∀ b, base = some b → IsWritten b)
    {scheme text : List Char} (hscheme : IsScheme scheme) (hends : EndsPlainly text) {url : Url}
    (h : afterScheme? base scheme text = some url) : IsWritten url := by
  unfold afterScheme? at h
  split at h
  · refine readFile?_isWritten (fun b hb => ?_) h
    obtain ⟨hb, hfile⟩ := Option.filter_eq_some_iff.1 hb
    exact ⟨hbase b hb, eq_of_beq hfile⟩
  · rename_i hkind
    have hne : kindOf scheme ≠ .file := by rw [hkind]; nofun
    split at h
    · rename_i b
      split at h
      · rename_i hsame
        have hb : b.scheme = scheme := eq_of_beq (Bool.and_eq_true_iff.1 hsame).2
        have hbkind : b.kind ≠ .file := by
          rw [kind, hb]
          exact hne
        refine readRelative?_isWritten (hbase b rfl) hbkind ?_ h
        exact (hbase b rfl).place.isRooted_of_kind (by rw [hb, hkind]; nofun)
      · exact afterSlashes?_isWritten hscheme hne h
    · exact afterSlashes?_isWritten hscheme hne h
  · rename_i hkind
    exact readOther?_isWritten hscheme hkind hends h

theorem cleaned_endsPlainly (text : String) : EndsPlainly (cleaned text) := by
  unfold cleaned
  dsimp only
  generalize (text.toList.dropWhile fun c => decide (c.toNat ≤ 0x20)).reverse = back
  rw [List.filter_reverse]
  unfold EndsPlainly
  rw [List.getLast?_reverse]
  have hnot := List.head?_dropWhile_not (fun c : Char => decide (c.toNat ≤ 0x20)) back
  cases hback : back.dropWhile fun c => decide (c.toNat ≤ 0x20) with
  | nil => nofun
  | cons c rest =>
      rw [hback] at hnot
      have hbound : 0x20 < c.toNat := by simpa using hnot
      have hne : ∀ d : Char, d.toNat ≤ 0x20 → c ≠ d := by
        rintro d hd rfl
        omega
      have htab : c ≠ '\t' := hne _ (by decide)
      have hline : c ≠ '\n' := hne _ (by decide)
      have hreturn : c ≠ '\r' := hne _ (by decide)
      rw [List.filter_cons_of_pos (by simp [htab, hline, hreturn])]
      intro hhead
      exact hne ' ' (by decide) (Option.some.inj hhead)

/-- Whatever is read, the URL is in written form. -/
theorem readAgainst?_isWritten {base : Option Url} (hbase : ∀ b, base = some b → IsWritten b)
    {text : String} {url : Url} (h : readAgainst? base text = some url) : IsWritten url := by
  unfold readAgainst? at h
  dsimp only at h
  split at h
  · rename_i scheme rest hcut
    obtain ⟨hscheme, front, heq⟩ := cutScheme?_isScheme hcut
    have hends : EndsPlainly (front ++ rest) := heq ▸ cleaned_endsPlainly text
    exact afterScheme?_isWritten hbase hscheme hends.suffix h
  · exact withoutScheme?_isWritten hbase h

theorem isWritten_of_read? {text : String} {url : Url} (h : read? text = some url) :
    IsWritten url :=
  readAgainst?_isWritten (fun _ hb => by cases hb) h

theorem IsWritten.join? {base url : Url} (hbase : IsWritten base) {reference : String}
    (h : base.join? reference = some url) : IsWritten url :=
  readAgainst?_isWritten (fun _ hb => Option.some.inj hb ▸ hbase) h

end Url

end SchemaGraph
