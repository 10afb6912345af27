import SchemaGraph.Proofs.Digits
import SchemaGraph.Proofs.Url.Written

set_option autoImplicit false

/-! # Reading the parts of a written URL back

A text is cut where the first character comes that the part before cannot have. So query, fragment
and authority are read as they are written (`queryAndFragment_tailText`,
`readAuthority?_authorityText`), the authority if its host is read as itself.
-/

namespace SchemaGraph

namespace Url

/-! ## Query and fragment -/

def queryText (query : Option (List Char)) : List Char :=
  match query with
  | some query => '?' :: query
  | none => []

def fragmentText (fragment : Option (List Char)) : List Char :=
  match fragment with
  | some fragment => '#' :: fragment
  | none => []

/-- What follows the path. -/
def tailText (url : Url) : List Char := queryText url.query ++ fragmentText url.fragment

theorem text_eq (url : Url) :
    url.text = String.ofList (url.scheme ++ ':' :: (url.beforeQuery ++ url.tailText)) := by
  have htext : url.text = String.ofList (url.scheme ++ ':' :: url.beforeQuery ++
      queryText url.query ++ fragmentText url.fragment) := rfl
  rw [htext, tailText]
  simp

/-- The text starts with a query or a fragment, if it is not empty. -/
def StartsTail (text : List Char) : Prop := ∀ c, text.head? = some c → endsPath c = true

theorem startsTail_tailText (url : Url) : StartsTail url.tailText := by
  intro c hc
  unfold tailText queryText fragmentText at hc
  cases hquery : url.query with
  | some query =>
      rw [hquery] at hc
      cases hc
      rfl
  | none =>
      rw [hquery] at hc
      cases hfragment : url.fragment with
      | some fragment =>
          rw [hfragment] at hc
          cases hc
          rfl
      | none =>
          rw [hfragment] at hc
          cases hc

section Tail

variable {path tail : List Char} (hpath : ∀ c ∈ path, endsPath c = false) (htail : StartsTail tail)
include hpath htail

theorem upToQuery_append : upToQuery (path ++ tail) = path :=
  takeWhile_append_of_stops (fun c hc => by rw [hpath c hc]; rfl)
    fun c hc => by rw [htail c hc]; rfl

theorem dropWhile_path : (path ++ tail).dropWhile (fun c => !endsPath c) = tail :=
  dropWhile_append_of_stops (fun c hc => by rw [hpath c hc]; rfl)
    fun c hc => by rw [htail c hc]; rfl

end Tail

theorem fragmentOf?_fragmentText {fragment : Option (List Char)}
    (h : ∀ f, fragment = some f → Percent.IsEncoded inFragment f) :
    fragmentOf? (fragmentText fragment) = fragment := by
  cases fragment with
  | none => rfl
  | some f =>
      show some (Percent.encode inFragment f) = some f
      rw [Percent.encode_of_isEncoded (h f rfl)]

theorem inQuery_hash (kind : Kind) : inQuery kind '#' = true := by cases kind <;> rfl

/-- Query and fragment are read as they are written. -/
theorem queryAndFragment_tailText {url : Url} (h : IsWritten url) {path : List Char}
    (hpath : ∀ c ∈ path, endsPath c = false) :
    queryAndFragment url.kind (path ++ url.tailText) = (url.query, url.fragment) := by
  have hfragment := fragmentOf?_fragmentText h.fragment
  rw [queryAndFragment_eq, dropWhile_path hpath (startsTail_tailText url)]
  unfold tailText
  cases hquery : url.query with
  | none =>
      cases hsome : url.fragment with
      | none => rfl
      | some fragment =>
          rw [hsome] at hfragment
          show (none, fragmentOf? (fragmentText (some fragment))) = _
          rw [hfragment]
  | some query =>
      have hencoded := h.query query hquery
      have hplain : ∀ c ∈ query, (c != '#') = true := by
        intro c hc
        rw [bne_iff_ne]
        rintro rfl
        have hhash := hencoded _ hc
        rw [inQuery_hash] at hhash
        cases hhash
      have hstops : ∀ c, (fragmentText url.fragment).head? = some c → (c != '#') = false := by
        intro c hc
        cases hsome : url.fragment with
        | none =>
            rw [hsome] at hc
            cases hc
        | some fragment =>
            rw [hsome] at hc
            cases hc
            rfl
      show (some (Percent.encode (inQuery url.kind)
          ((query ++ fragmentText url.fragment).takeWhile (· != '#'))),
        fragmentOf? ((query ++ fragmentText url.fragment).dropWhile (· != '#'))) = _
      rw [takeWhile_append_of_stops hplain hstops, dropWhile_append_of_stops hplain hstops,
        Percent.encode_of_isEncoded hencoded, hfragment]

/-- The tail of a URL is read as it is written, whatever the rest of the URL. -/
theorem withTail_tailText {url : Url} (h : IsWritten url) {path : List Char}
    (hpath : ∀ c ∈ path, endsPath c = false) {other : Url} (hscheme : other.scheme = url.scheme)
    (hauthority : other.authority = url.authority) (hsame : other.path = url.path) :
    other.withTail (path ++ url.tailText) = url := by
  have hkind : other.kind = url.kind := by rw [kind, kind, hscheme]
  unfold withTail
  rw [hkind, queryAndFragment_tailText h hpath, hscheme, hauthority, hsame]

/-! ## Authorities -/

/-- The host of a URL is read as itself. -/
def HostStands (kind : Kind) (host : List Char) : Prop :=
  match kind with
  | .special => Host.special? host = some host
  | .file => host = [] ∨ Host.special? host = some host ∧ host ≠ "localhost".toList
  | .other => Host.opaqueText? host = some host

end Url

namespace Host.IsDelimited

variable {host : List Char}

theorem mem (h : IsDelimited host) {c : Char} (hc : c ∈ host) :
    isPlain c = true ∨ c ∈ ['[', ']', ':'] := by
  cases h with
  | plain h => exact .inl (h c hc)
  | bracketed h =>
      rcases List.mem_append.1 hc with hc | hc
      · rcases List.mem_cons.1 hc with rfl | hc
        · exact .inr (by decide)
        · exact (h c hc).imp id fun hcolon => by rw [hcolon]; decide
      · exact .inr (by rw [List.mem_singleton.1 hc]; decide)

theorem not_mem (h : IsDelimited host) {c : Char} (hplain : isPlain c = false)
    (hmarks : c ∉ ['[', ']', ':']) : c ∉ host := by
  intro hc
  rcases h.mem hc with hc | hc
  · rw [hplain] at hc
    cases hc
  · exact hmarks hc

theorem high (h : IsDelimited host) {c : Char} (hc : c ∈ host) : 0x20 < c.toNat := by
  rcases h.mem hc with hplain | hmark
  · exact of_decide_eq_true (Bool.and_eq_true_iff.1 hplain).1
  · have hall : ∀ c ∈ ['[', ']', ':'], 0x20 < c.toNat := by simp
    exact hall c hmark

theorem not_endsAuthority (h : IsDelimited host) (kind : Url.Kind) {c : Char} (hc : c ∈ host) :
    Url.endsAuthority kind c = false := by
  have hne : ∀ d, isPlain d = false → d ∉ ['[', ']', ':'] → c ≠ d := by
    rintro d hplain hmark rfl
    exact h.not_mem hplain hmark hc
  have hslash : c ≠ '/' := hne _ (by decide) (by decide)
  have hquery : c ≠ '?' := hne _ (by decide) (by decide)
  have hhash : c ≠ '#' := hne _ (by decide) (by decide)
  have hback : c ≠ '\\' := hne _ (by decide) (by decide)
  simp [Url.endsAuthority, Url.endsPath, hslash, hquery, hhash, hback]

end Host.IsDelimited

namespace Url

/-- What may follow a host: a port behind its colon. -/
def StartsPort (text : List Char) : Prop := ∀ c, text.head? = some c → c = ':'

theorem cutHost_plain {host rest : List Char} (h : ∀ c ∈ host, Host.isPlain c = true)
    (hrest : StartsPort rest) : cutHost false (host ++ rest) = (host, rest) := by
  induction host with
  | nil =>
      cases rest with
      | nil => rfl
      | cons c more =>
          rw [hrest c rfl]
          rfl
  | cons c more ih =>
      have hc : Host.isPlain c = true := h c List.mem_cons_self
      have hne : ∀ d, Host.isPlain d = false → (c == d) = false := by
        intro d hd
        rw [beq_eq_false_iff_ne]
        rintro rfl
        rw [hd] at hc
        cases hc
      have hmore := ih fun d hd => h d (List.mem_cons_of_mem c hd)
      rw [List.cons_append, cutHost, hne ':' (by decide), hne '[' (by decide), hne ']' (by decide)]
      show (c :: (cutHost false (more ++ rest)).1, (cutHost false (more ++ rest)).2) = _
      rw [hmore]

theorem cutHost_inner {inner rest : List Char}
    (h : ∀ c ∈ inner, Host.isPlain c = true ∨ c = ':') (hrest : StartsPort rest) :
    cutHost true (inner ++ ']' :: rest) = (inner ++ [']'], rest) := by
  induction inner with
  | nil =>
      have hend : cutHost false rest = ([], rest) := @cutHost_plain [] rest (by simp) hrest
      show (']' :: (cutHost false rest).1, (cutHost false rest).2) = _
      rw [hend]
      rfl
  | cons c more ih =>
      have hne : ∀ d, Host.isPlain d = false → d ≠ ':' → (c == d) = false := by
        intro d hd hcolon
        rw [beq_eq_false_iff_ne]
        rintro rfl
        rcases h c List.mem_cons_self with hc | hc
        · rw [hd] at hc
          cases hc
        · exact hcolon hc
      have hmore := ih fun d hd => h d (List.mem_cons_of_mem c hd)
      rw [List.cons_append, cutHost, hne '[' (by decide) (by decide),
        hne ']' (by decide) (by decide), Bool.not_true, Bool.and_false]
      show (c :: (cutHost true (more ++ ']' :: rest)).1, (cutHost true (more ++ ']' :: rest)).2) = _
      rw [hmore]
      rfl

/-- A host ends where its port begins. -/
theorem cutHost_isDelimited {host rest : List Char} (h : Host.IsDelimited host)
    (hrest : StartsPort rest) : cutHost false (host ++ rest) = (host, rest) := by
  cases h with
  | plain h => exact cutHost_plain h hrest
  | bracketed h =>
      rename_i inner
      have hinner := cutHost_inner h hrest
      rw [List.cons_append, List.cons_append, List.append_assoc, List.singleton_append]
      show ('[' :: (cutHost true (inner ++ ']' :: rest)).1,
        (cutHost true (inner ++ ']' :: rest)).2) = _
      rw [hinner]

/-- A port behind its colon, if there is one. -/
def portText (port : Option Nat) : List Char :=
  match port with
  | some port => ':' :: Nat.toDigits 10 port
  | none => []

theorem authorityText_eq (authority : Authority) :
    authorityText authority = authority.user ++ (authority.host ++ portText authority.port) := by
  have htext : authorityText authority =
      authority.user ++ authority.host ++ portText authority.port := rfl
  rw [htext, List.append_assoc]

theorem startsPort_portText (port : Option Nat) : StartsPort (portText port) := by
  cases port with
  | none => nofun
  | some n =>
      intro c hc
      exact (Option.some.inj hc).symm

theorem mem_portText {port : Option Nat} {c : Char} (h : c ∈ portText port) :
    c = ':' ∨ Ascii.isDigit c = true := by
  cases port with
  | none => cases h
  | some n =>
      rcases List.mem_cons.1 h with rfl | h
      · exact .inl rfl
      · exact .inr (Ascii.isDigit_of_mem_toDigits h)

theorem readPort?_portText {scheme : List Char} {port : Option Nat}
    (h : ∀ n, port = some n → n < 0x10000 ∧ defaultPort? scheme ≠ some n) :
    readPort? scheme ((portText port).drop 1) = some port := by
  cases port with
  | none => rfl
  | some n =>
      obtain ⟨hbound, hdefault⟩ := h n rfl
      have hempty : (Nat.toDigits 10 n).isEmpty = false := by simp [Nat.toDigits_ne_nil]
      have hdigits : (Nat.toDigits 10 n).all Ascii.isDigit = true :=
        List.all_eq_true.2 fun _ => Ascii.isDigit_of_mem_toDigits
      have hvalue : Ascii.decimalValue (Nat.toDigits 10 n) = n := Ascii.decimalValue_toDigits n
      have hother : (defaultPort? scheme == some n) = false := by
        rw [beq_eq_false_iff_ne]
        exact hdefault
      show readPort? scheme (Nat.toDigits 10 n) = some (some n)
      unfold readPort?
      dsimp only
      rw [hempty, hdigits, hvalue, if_neg Bool.false_ne_true, if_pos rfl, if_pos hbound, hother]
      rfl

/-- Name and password are read as they are written. -/
theorem userText_written {name password : List Char} (hname : Percent.IsEncoded inUser name)
    (hpassword : Percent.IsEncoded inUser password) (hne : ¬(name = [] ∧ password = [])) :
    userText (name ++ passwordText password) = name ++ passwordText password ++ ['@'] := by
  have hcolon : ':' ∉ name := fun hmem => by cases hname ':' hmem
  have hname' := Percent.encode_of_isEncoded hname
  have hpassword' := Percent.encode_of_isEncoded hpassword
  unfold userText
  cases password with
  | nil =>
      have hempty : name.isEmpty = false := by
        cases name with
        | nil => exact absurd ⟨rfl, rfl⟩ hne
        | cons c rest => rfl
      rw [show passwordText [] = [] from rfl, List.append_nil, cutAt?_of_not_mem hcolon]
      dsimp only [Option.getD_none]
      rw [hname', hempty]
      simp
  | cons c rest =>
      rw [show passwordText (c :: rest) = ':' :: c :: rest from rfl, cutAt?_append hcolon]
      dsimp only [Option.getD_some]
      rw [hname', hpassword']
      simp

theorem mem_user {user : List Char} (h : IsUser user) {c : Char} (hc : c ∈ user) :
    inUser c = false ∨ c = ':' ∨ c = '@' := by
  rcases h with rfl | ⟨name, password, hname, hpassword, -, rfl⟩
  · cases hc
  · rcases List.mem_append.1 hc with hc | hc
    · rcases List.mem_append.1 hc with hc | hc
      · exact .inl (hname c hc)
      · unfold passwordText at hc
        split at hc
        · cases hc
        · rcases List.mem_cons.1 hc with rfl | hc
          · exact .inr (.inl rfl)
          · exact .inl (hpassword c hc)
    · exact .inr (.inr (List.mem_singleton.1 hc))

theorem at_not_mem {host : List Char} (h : Host.IsDelimited host) (port : Option Nat) :
    '@' ∉ host ++ portText port := by
  intro hmem
  rcases List.mem_append.1 hmem with hmem | hmem
  · exact h.not_mem (by decide) (by decide) hmem
  · rcases mem_portText hmem with hmem | hmem <;> cases hmem

/-- An authority is read as it is written. -/
theorem readAuthority?_authorityText {scheme : List Char} {kind : Kind} {authority : Authority}
    (h : IsAuthority scheme authority) (hfile : kind ≠ .file)
    (hhost : HostStands kind authority.host) :
    readAuthority? scheme kind (authorityText authority) = some authority := by
  obtain ⟨user, host, port⟩ := authority
  have hdelimited : Host.IsDelimited host := h.host
  have hat := at_not_mem hdelimited port
  have hcut := cutHost_isDelimited hdelimited (startsPort_portText port)
  have hport := readPort?_portText h.port
  have hread : ∀ user, (if kind.isSpecial then
        (Host.special? host).bind fun host => (readPort? scheme ((portText port).drop 1)).bind
          fun port => some ⟨user, host, port⟩
      else (Host.opaqueText? host).bind fun host => (readPort? scheme ((portText port).drop 1)).bind
          fun port => some ⟨user, host, port⟩) = some (⟨user, host, port⟩ : Authority) := by
    intro user
    rw [hport]
    cases kind with
    | file => exact absurd rfl hfile
    | special =>
        have hspecial : Host.special? host = some host := hhost
        rw [hspecial]
        rfl
    | other =>
        have hother : Host.opaqueText? host = some host := hhost
        rw [hother]
        rfl
  have hspecial : host = [] → kind.isSpecial = false := by
    intro hnil
    cases kind with
    | file => exact absurd rfl hfile
    | special => exact absurd hnil (Host.special?_ne_nil hhost)
    | other => rfl
  rw [authorityText_eq]
  unfold readAuthority?
  rcases h.user with huser | ⟨name, password, hname, hpassword, hne, huser⟩
  · -- nobody is named
    obtain rfl : user = [] := huser
    have hcontains : (host ++ portText port).contains '@' = false := by
      rw [List.contains_eq_mem]
      exact decide_eq_false hat
    have hbare : (host.isEmpty && (kind.isSpecial || false || !(portText port).isEmpty)) = false := by
      cases host with
      | cons c rest => rfl
      | nil =>
          have hport : port = none := (h.bare rfl).2
          rw [hspecial rfl, hport]
          rfl
    rw [List.nil_append, cutAtLast?_of_not_mem hat, hcontains]
    dsimp only [Option.getD_none]
    rw [hcut]
    dsimp only
    rw [hbare, if_neg Bool.false_ne_true]
    exact hread []
  · obtain rfl : user = name ++ passwordText password ++ ['@'] := huser
    have hcontains : (name ++ passwordText password ++ '@' :: (host ++ portText port)).contains '@' =
        true := by
      simp
    have hhost' : host.isEmpty = false := by
      cases host with
      | cons c rest => rfl
      | nil => exact absurd (h.bare rfl).1 (by simp)
    rw [List.append_assoc _ ['@'], List.singleton_append, cutAtLast?_append hat, hcontains]
    dsimp only [Option.getD_some]
    rw [hcut]
    dsimp only
    rw [hhost', Bool.false_and, if_neg Bool.false_ne_true, userText_written hname hpassword hne]
    exact hread _

end Url

end SchemaGraph
