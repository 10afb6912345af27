import SchemaGraph.Proofs.Url.Parts

set_option autoImplicit false

/-! # Reading a written URL back

The text of a URL in written form is read as that URL (`read?_text`). What written form does not
say is asked of the host, which must be read as itself, and of the drive letter of a file, which is
put into written form and takes the place of the host when it comes right behind it (`Stands`).
-/

namespace SchemaGraph

namespace Url

/-! ## Texts without control characters -/

/-- No character of the text is a control character. -/
def NoControl (text : List Char) : Prop := ∀ c ∈ text, 0x20 ≤ c.toNat

theorem NoControl.append {front back : List Char} (hfront : NoControl front)
    (hback : NoControl back) : NoControl (front ++ back) :=
  fun c hc => (List.mem_append.1 hc).elim (hfront c) (hback c)

theorem NoControl.cons {c : Char} {text : List Char} (hc : 0x20 ≤ c.toNat) (h : NoControl text) :
    NoControl (c :: text) :=
  fun _ hd => (List.mem_cons.1 hd).elim (fun heq => heq ▸ hc) (h _)

theorem high_of_not_control {c : Char} (h : Host.isControl c = false) : 0x20 ≤ c.toNat := by
  simp only [Host.isControl, Bool.or_eq_false_iff, decide_eq_false_iff_not] at h
  omega

theorem high_of_not_inFragment {c : Char} (h : inFragment c = false) : 0x20 ≤ c.toNat :=
  high_of_not_control (Bool.or_eq_false_iff.1 h).1

theorem high_of_not_inPath {c : Char} (h : inPath c = false) : 0x20 ≤ c.toNat :=
  high_of_not_inFragment (Bool.or_eq_false_iff.1 h).1

theorem high_of_not_inUser {c : Char} (h : inUser c = false) : 0x20 ≤ c.toNat :=
  high_of_not_inPath (Bool.or_eq_false_iff.1 h).1

theorem high_of_not_inQuery {kind : Kind} {c : Char} (h : inQuery kind c = false) :
    0x20 ≤ c.toNat :=
  high_of_not_control (Bool.or_eq_false_iff.1 (Bool.or_eq_false_iff.1 h).1).1

theorem high_of_inScheme {c : Char} (h : inScheme c = true) : 0x20 < c.toNat := by
  simp only [inScheme, Bool.or_eq_true, beq_iff_eq] at h
  rcases h with (((h | h) | rfl) | rfl) | rfl
  · have hrange := Ascii.isLetter_range h
    omega
  · have hrange := Ascii.isDigit_range h
    omega
  all_goals decide

theorem IsPath.noControl {kind : Kind} {path : List Char} (h : IsPath kind path) :
    NoControl path := by
  intro c hc
  rcases h.mem hc with rfl | ⟨hplain, -⟩
  · decide
  · exact high_of_not_inPath hplain

theorem IsAuthority.high {scheme : List Char} {authority : Authority}
    (h : IsAuthority scheme authority) :
    ∀ c ∈ authorityText authority, 0x20 < c.toNat := by
  intro c hc
  rw [authorityText_eq] at hc
  rcases List.mem_append.1 hc with hc | hc
  · rcases mem_user h.user hc with hplain | rfl | rfl
    · have hhigh := high_of_not_inUser hplain
      have hblank : c.toNat ≠ 0x20 := by
        intro heq
        rw [Char.toNat_inj.1 (show c.toNat = ' '.toNat from heq)] at hplain
        cases hplain
      omega
    · decide
    · decide
  · rcases List.mem_append.1 hc with hc | hc
    · exact h.host.high hc
    · rcases mem_portText hc with rfl | hdigit
      · decide
      · have hrange := Ascii.isDigit_range hdigit
        omega

/-- Nothing is cleaned away from a text without control characters and without blanks at its
ends. -/
theorem cleaned_ofList {text : List Char} (h : NoControl text) (hstart : text.head? ≠ some ' ')
    (hends : EndsPlainly text) : cleaned (String.ofList text) = text := by
  have hedge : ∀ c : Char, 0x20 ≤ c.toNat → c ≠ ' ' → decide (c.toNat ≤ 0x20) = false := by
    intro c hc hblank
    have hne : c.toNat ≠ 0x20 := fun heq => hblank (Char.toNat_inj.1 heq)
    rw [decide_eq_false_iff_not]
    omega
  have hfront : text.dropWhile (fun c => decide (c.toNat ≤ 0x20)) = text := by
    cases text with
    | nil => rfl
    | cons c rest =>
        have hc := hedge c (h c List.mem_cons_self) fun heq => hstart (by rw [heq]; rfl)
        rw [List.dropWhile_cons_of_neg (by rw [hc]; nofun)]
  have hback : text.reverse.dropWhile (fun c => decide (c.toNat ≤ 0x20)) = text.reverse := by
    cases hreverse : text.reverse with
    | nil => rfl
    | cons c rest =>
        have hlast : text.getLast? = some c := by
          rw [← List.head?_reverse, hreverse]
          rfl
        have hc := hedge c (h c (List.mem_of_getLast? hlast)) fun heq => hends (by rw [hlast, heq])
        rw [List.dropWhile_cons_of_neg (by rw [hc]; nofun)]
  unfold cleaned
  dsimp only
  rw [String.toList_ofList, hfront, hback, List.reverse_reverse, List.filter_eq_self]
  intro c hc
  have hhigh := h c hc
  have hne : ∀ d : Char, d.toNat < 0x20 → c ≠ d := by
    rintro d hd rfl
    omega
  have htab : c ≠ '\t' := hne _ (by decide)
  have hline : c ≠ '\n' := hne _ (by decide)
  have hreturn : c ≠ '\r' := hne _ (by decide)
  simp [htab, hline, hreturn]

/-- A scheme is read as it is written. -/
theorem cutScheme?_append {scheme : List Char} (h : IsScheme scheme) (rest : List Char) :
    cutScheme? (scheme ++ ':' :: rest) = some (scheme, rest) := by
  have hstops : ∀ c, (':' :: rest).head? = some c → inScheme c = false := by
    intro c hc
    cases hc
    rfl
  have htake : (scheme ++ ':' :: rest).takeWhile inScheme = scheme :=
    takeWhile_append_of_stops h.all hstops
  have hlower : scheme.map Ascii.toLower = scheme := by
    rw [List.map_congr_left h.lower, List.map_id']
  obtain ⟨c, more, rfl, hletter⟩ := h.starts
  rw [List.cons_append] at htake ⊢
  rw [cutScheme?_cons, htake, if_pos hletter, hlower]
  have hdrop : (c :: (more ++ ':' :: rest)).drop (c :: more).length = ':' :: rest :=
    @List.drop_left _ (c :: more) (':' :: rest)
  rw [hdrop]
  rfl

/-! ## Whole URLs -/

/-- The host of the URL is read as itself. A drive letter at the start of the path of a file stands
in its written form, and behind no host. -/
structure Stands (url : Url) : Prop where
  host : ∀ authority, url.authority = some authority → HostStands url.kind authority.host
  drive : url.kind = .file → startsWithDriveLetter (url.path.drop 1) = true →
    (url.authority.map Authority.host).getD [] = [] ∧
      isNormalDriveLetter ((url.path.drop 1).take 2) = true

theorem IsPath.whole {kind : Kind} {path : List Char} (h : IsPath kind path) :
    ∀ c ∈ path, endsPath c = false := by
  intro c hc
  have hmarks : endsPath '/' = false ∧ inPath '?' = true ∧ inPath '#' = true := by decide
  rcases h.mem hc with rfl | ⟨hplain, -⟩
  · exact hmarks.1
  · have hne : ∀ d, inPath d = true → (c == d) = false := by
      intro d hd
      rw [beq_eq_false_iff_ne]
      rintro rfl
      rw [hd] at hplain
      cases hplain
    rw [endsPath, hne '?' hmarks.2.1, hne '#' hmarks.2.2]
    rfl

theorem IsPath.head? {kind : Kind} {path : List Char} (h : IsPath kind path) :
    path.head? = some '/' := by
  obtain ⟨first, segments, -, -, rfl⟩ := h
  rfl

theorem endsAuthority_of_endsPath {kind : Kind} {c : Char} (h : endsPath c = true) :
    endsAuthority kind c = true := by
  rw [endsAuthority, h, Bool.or_true, Bool.true_or]

theorem authorityText_whole {scheme : List Char} {authority : Authority}
    (h : IsAuthority scheme authority) (kind : Kind) :
    ∀ c ∈ authorityText authority, endsAuthority kind c = false := by
  intro c hc
  have hall : ∀ d, endsAuthority kind d = true → d ∈ ['/', '?', '#', '\\'] := by
    intro d hd
    simp only [endsAuthority, endsPath, Bool.or_eq_true, beq_iff_eq, Bool.and_eq_true] at hd
    rcases hd with (rfl | rfl | rfl) | ⟨-, rfl⟩ <;> decide
  rw [Bool.eq_false_iff]
  intro hends
  have hmark := hall c hends
  rw [authorityText_eq] at hc
  rcases List.mem_append.1 hc with hc | hc
  · have hescaped : ∀ d ∈ ['/', '?', '#', '\\'], inUser d = true ∧ d ≠ ':' ∧ d ≠ '@' := by
      simp [inUser, inPath]
    obtain ⟨hin, hcolon, hat⟩ := hescaped c hmark
    rcases mem_user h.user hc with hplain | heq | heq
    · rw [hin] at hplain
      cases hplain
    · exact hcolon heq
    · exact hat heq
  · rcases List.mem_append.1 hc with hc | hc
    · rw [h.host.not_endsAuthority kind hc] at hends
      cases hends
    · have hother : ∀ d ∈ ['/', '?', '#', '\\'], d ≠ ':' ∧ Ascii.isDigit d = false := by
        simp [Ascii.isDigit]
      obtain ⟨hcolon, hdigit⟩ := hother c hmark
      rcases mem_portText hc with heq | hc
      · exact hcolon heq
      · rw [hdigit] at hc
        cases hc

/-- What follows the two slashes is read as it is written. -/
theorem afterSlashes?_written {url : Url} (h : IsWritten url) {authority : Authority}
    (hauthority : url.authority = some authority) (hwritten : IsAuthority url.scheme authority)
    (hfile : url.kind ≠ .file) (hhost : HostStands url.kind authority.host)
    (hpath : url.path = [] ∨ url.path.head? = some '/') (hwhole : ∀ c ∈ url.path, endsPath c = false)
    (hback : pathFromStart url.kind url.path = url.path) :
    afterSlashes? url.scheme (authorityText authority ++ (url.path ++ url.tailText)) = some url := by
  have hplain : ∀ c ∈ authorityText authority, (!endsAuthority url.kind c) = true := by
    intro c hc
    rw [authorityText_whole hwritten url.kind c hc]
    rfl
  have hstops : ∀ c, (url.path ++ url.tailText).head? = some c →
      (!endsAuthority url.kind c) = false := by
    intro c hc
    rcases hpath with hnil | hslash
    · rw [hnil, List.nil_append] at hc
      rw [endsAuthority_of_endsPath (startsTail_tailText url c hc)]
      rfl
    · rw [List.head?_append, hslash] at hc
      cases hc
      rfl
  unfold afterSlashes?
  dsimp only
  rw [← kind, takeWhile_append_of_stops hplain hstops, dropWhile_append_of_stops hplain hstops,
    readAuthority?_authorityText hwritten hfile hhost,
    upToQuery_append hwhole (startsTail_tailText url), hback]
  exact congrArg some (withTail_tailText h hwhole rfl hauthority.symm rfl)

/-- A drive letter at the start of a path stands in its written form. -/
def DriveIsWritten (kind : Kind) (path : List Char) : Prop :=
  kind = .file → startsWithDriveLetter (path.drop 1) = true →
    isNormalDriveLetter ((path.drop 1).take 2) = true

theorem DriveIsWritten.first {kind : Kind} {first : List Char} {segments : List (List Char)}
    (h : DriveIsWritten kind (slashed (first :: segments))) : DriveStands kind ['/'] first := by
  intro hkind _ hletter
  match first, hletter with
  | [a, b], hletter =>
      refine h hkind ?_
      cases segments <;>
      · show (isDriveLetter [a, b] && _) = true
        rw [hletter]
        rfl

/-- A path in its written form is read as it is. -/
theorem pathFromStart_written {kind : Kind} {path : List Char} (h : IsWhole kind path)
    (hdrive : DriveIsWritten kind path) : pathFromStart kind path = path := by
  cases kind with
  | file =>
      obtain ⟨first, segments, hfirst, hall, hnil, rfl⟩ := h
      exact pathFromStart_slashed hfirst hall hdrive.first fun _ => hnil
  | special =>
      obtain ⟨first, segments, hfirst, hall, rfl⟩ := h
      exact pathFromStart_slashed hfirst hall hdrive.first nofun
  | other =>
      obtain ⟨first, segments, hfirst, hall, rfl⟩ := h
      exact pathFromStart_slashed hfirst hall hdrive.first nofun

/-- The text of a URL behind its scheme is read as it is written. -/
def ReadsBack (url : Url) : Prop :=
  afterScheme? none url.scheme (url.beforeQuery ++ url.tailText) = some url

theorem beforeQuery_authority {url : Url} {authority : Authority}
    (h : url.authority = some authority) :
    url.beforeQuery = '/' :: '/' :: (authorityText authority ++ url.path) := by
  unfold beforeQuery
  rw [h]
  rfl

theorem readsBack_special {url : Url} (h : IsWritten url) (hkind : url.kind = .special)
    (hstands : url.Stands) {authority : Authority} (hauthority : url.authority = some authority)
    (hwritten : IsAuthority url.scheme authority) (hpath : IsPath .special url.path) :
    url.ReadsBack := by
  have hhost := hstands.host authority hauthority
  have hspecial : Kind.special ≠ .file := by decide
  have hfile : url.kind ≠ .file := by
    rw [hkind]
    exact hspecial
  have hback : pathFromStart url.kind url.path = url.path := by
    rw [hkind]
    exact pathFromStart_written (show IsWhole .special url.path from hpath) fun h =>
      absurd h hspecial
  have hread := afterSlashes?_written h hauthority hwritten hfile hhost (.inr hpath.head?) hpath.whole
    hback
  have hslashes : (url.beforeQuery ++ url.tailText).dropWhile isSlash =
      authorityText authority ++ (url.path ++ url.tailText) := by
    have hmore : (authorityText authority ++ (url.path ++ url.tailText)).dropWhile isSlash =
        authorityText authority ++ (url.path ++ url.tailText) := by
      cases htext : authorityText authority with
      | nil =>
          rw [hkind] at hhost
          rw [authorityText_eq] at htext
          obtain ⟨-, htext⟩ := List.append_eq_nil_iff.1 htext
          exact absurd (List.append_eq_nil_iff.1 htext).1 (Host.special?_ne_nil hhost)
      | cons c more =>
          have hc : endsAuthority .special c = false :=
            authorityText_whole hwritten .special c (by rw [htext]; simp)
          have hslash : isSlash c = false := by
            simp only [endsAuthority, Bool.or_eq_false_iff] at hc
            have hback : (c == '\\') = false := hc.2
            rw [isSlash, hc.1.1, hback]
            rfl
          have hnot : ¬isSlash c = true := by
            rw [hslash]
            exact Bool.false_ne_true
          rw [List.cons_append, List.dropWhile_cons_of_neg hnot]
    rw [beforeQuery_authority hauthority]
    show (authorityText authority ++ url.path ++ url.tailText).dropWhile isSlash = _
    rw [List.append_assoc, hmore]
  unfold ReadsBack afterScheme?
  rw [← kind, hkind]
  dsimp only
  rw [hslashes]
  exact hread

theorem readsBack_other {url : Url} (h : IsWritten url) (hkind : url.kind = .other)
    (hstands : url.Stands) {authority : Authority} (hauthority : url.authority = some authority)
    (hwritten : IsAuthority url.scheme authority) (hpath : url.path = [] ∨ IsPath .other url.path) :
    url.ReadsBack := by
  have hhost := hstands.host authority hauthority
  have hfile : url.kind ≠ .file := by rw [hkind]; nofun
  have hback : pathFromStart url.kind url.path = url.path := by
    rw [hkind]
    rcases hpath with hnil | hpath
    · rw [hnil]
      rfl
    · exact pathFromStart_written (show IsWhole .other url.path from hpath) nofun
  have hwhole : ∀ c ∈ url.path, endsPath c = false := by
    rcases hpath with hnil | hpath
    · rw [hnil]
      nofun
    · exact hpath.whole
  have hread := afterSlashes?_written h hauthority hwritten hfile hhost (hpath.imp id IsPath.head?)
    hwhole hback
  unfold ReadsBack afterScheme?
  rw [← kind, hkind, beforeQuery_authority hauthority]
  show afterSlashes? url.scheme (authorityText authority ++ url.path ++ url.tailText) = _
  rw [List.append_assoc]
  exact hread

theorem isDriveLetter_host {host : List Char} (h : Host.IsDelimited host) :
    isDriveLetter host = false := by
  cases h with
  | bracketed h =>
      rename_i inner
      match inner with
      | [] => rfl
      | [_] => rfl
      | _ :: _ :: _ => rfl
  | plain h =>
      rw [Bool.eq_false_iff]
      intro hletter
      match host, hletter with
      | [a, b], hletter =>
          have hplain := h b (by simp)
          rcases Bool.or_eq_true_iff.1 (Bool.and_eq_true_iff.1 hletter).2 with hb | hb
          · rw [eq_of_beq hb] at hplain
            cases hplain
          · rw [eq_of_beq hb] at hplain
            cases hplain

theorem readsBack_file {url : Url} (h : IsWritten url) (hkind : url.kind = .file)
    (hstands : url.Stands) {host : List Char} (hauthority : url.authority = some ⟨[], host, none⟩)
    (hdelimited : Host.IsDelimited host) (hpath : IsFilePath url.path) : url.ReadsBack := by
  have hhost : HostStands .file host := by
    have hhost := hstands.host _ hauthority
    rw [hkind] at hhost
    exact hhost
  have hwhole : IsWhole .file url.path := hpath
  have hback : pathFromStart .file url.path = url.path :=
    pathFromStart_written hwhole fun _ hletter => (hstands.drive hkind hletter).2
  have hplain : ∀ c ∈ host, (!(isSlash c || endsPath c)) = true := by
    intro c hc
    have hends := hdelimited.not_endsAuthority .file hc
    simp only [endsAuthority, Bool.or_eq_false_iff] at hends
    have hbackslash : (c == '\\') = false := hends.2
    rw [isSlash, hends.1.1, hends.1.2, hbackslash]
    rfl
  have hstops : ∀ c, (url.path ++ url.tailText).head? = some c →
      (!(isSlash c || endsPath c)) = false := by
    intro c hc
    rw [List.head?_append, hwhole.isPath.head?] at hc
    cases hc
    rfl
  have htail : (fileUrl host url.path).withTail (url.path ++ url.tailText) = url :=
    withTail_tailText h hwhole.isPath.whole (scheme_of_kind hkind).symm hauthority.symm rfl
  have hkept : (if startsWithDriveLetter (url.path.drop 1) then []
      else if host == "localhost".toList then [] else host) = host := by
    split
    · rename_i hletter
      have hnone := (hstands.drive hkind hletter).1
      rw [hauthority] at hnone
      exact hnone.symm
    · split
      · rename_i hlocal
        rcases hhost with hnil | ⟨-, hne⟩
        · exact hnil.symm
        · exact absurd (eq_of_beq hlocal) hne
      · rfl
  unfold ReadsBack afterScheme?
  rw [← kind, hkind, beforeQuery_authority hauthority]
  show fileAfterSlashes? (host ++ [] ++ url.path ++ url.tailText) = some url
  rw [List.append_nil, List.append_assoc]
  unfold fileAfterSlashes?
  dsimp only
  rw [takeWhile_append_of_stops hplain hstops, dropWhile_append_of_stops hplain hstops,
    isDriveLetter_host hdelimited, if_neg Bool.false_ne_true,
    upToQuery_append hwhole.isPath.whole (startsTail_tailText url), hback]
  rcases hhost with rfl | ⟨hread, -⟩
  · show some ((fileUrl (if startsWithDriveLetter (url.path.drop 1) then []
      else if [] == "localhost".toList then [] else []) url.path).withTail _) = _
    rw [hkept, htail]
  · have hempty : host.isEmpty = false := by
      simpa using Host.special?_ne_nil hread
    rw [hempty, if_neg Bool.false_ne_true, hread]
    show some ((fileUrl (if startsWithDriveLetter (url.path.drop 1) then []
      else if host == "localhost".toList then [] else host) url.path).withTail _) = _
    rw [hkept, htail]

theorem readOther?_rooted {scheme text : List Char} (h : text.head? ≠ some '/') :
    readOther? scheme ('/' :: text) =
      some (withTail ⟨scheme, none, extendPath .other ['/'] (upToQuery text), none, none⟩ text) := by
  unfold readOther?
  split
  · rename_i heq
    cases heq
    exact absurd rfl h
  · rename_i heq
    cases heq
    rfl
  · rename_i hother
    exact absurd rfl (hother text)

theorem readOther?_unrooted {scheme text : List Char} (h : text.head? ≠ some '/') :
    readOther? scheme text =
      some (withTail ⟨scheme, none, Percent.encode Host.isControl (upToQuery text), none, none⟩
        text) := by
  unfold readOther?
  split
  · exact absurd rfl h
  · exact absurd rfl h
  · rfl

/-- A dot before the path goes. -/
theorem extendPath_dot (text : List Char) :
    extendPath .other ['/'] ('.' :: '/' :: text) = extendPath .other ['/'] text := by
  have hroot : takeSegment .other ['/'] ['.'] true = ['/'] := by decide
  have htake : takeSegments .other ['/'] [] ('.' :: '/' :: text) =
      takeSegments .other (takeSegment .other ['/'] ['.'] true) [] text := rfl
  unfold extendPath
  dsimp only
  rw [htake, hroot]

theorem startsTail_head {tail : List Char} (h : StartsTail tail) : tail.head? ≠ some '/' := by
  intro hslash
  cases h _ hslash

theorem readsBack_rooted {url : Url} (h : IsWritten url) (hkind : url.kind = .other)
    (hauthority : url.authority = none) (hpath : IsPath .other url.path) : url.ReadsBack := by
  have htailed := startsTail_tailText url
  obtain ⟨first, segments, hfirst, hall, hslashed⟩ := hpath
  have hother : Kind.other ≠ .file := by decide
  have hback : extendPath .other ['/'] (first ++ slashed segments) = url.path := by
    rw [hslashed]
    exact extendPath_slashed hfirst hall (fun h => absurd h hother) fun h => absurd h hother
  have hwhole : ∀ c ∈ first ++ slashed segments, endsPath c = false := fun c hc =>
    IsPath.whole ⟨first, segments, hfirst, hall, rfl⟩ c (List.mem_cons_of_mem '/' hc)
  have hread : ∀ front, (∀ c ∈ front, endsPath c = false) →
      (front ++ url.tailText).head? ≠ some '/' → extendPath .other ['/'] front = url.path →
      readOther? url.scheme ('/' :: (front ++ url.tailText)) = some url := by
    intro front hfront hhead hextend
    rw [readOther?_rooted hhead, upToQuery_append hfront htailed, hextend]
    exact congrArg some (withTail_tailText h hfront rfl hauthority.symm rfl)
  have hpath : url.path = '/' :: (first ++ slashed segments) := hslashed
  unfold ReadsBack afterScheme?
  rw [← kind, hkind]
  show readOther? url.scheme (url.beforeQuery ++ url.tailText) = some url
  unfold beforeQuery
  rw [hauthority]
  dsimp only
  rw [hpath]
  split
  · -- two slashes are set off by a dot
    rename_i rest hrest
    refine hread ('.' :: '/' :: (first ++ slashed segments)) ?_ (by simp) ?_
    · intro c hc
      rcases List.mem_cons.1 hc with rfl | hc
      · decide
      · rcases List.mem_cons.1 hc with rfl | hc
        · decide
        · exact hwhole c hc
    · rw [extendPath_dot]
      exact hback
  · rename_i hsingle
    refine hread _ hwhole ?_ hback
    cases hmore : first ++ slashed segments with
    | nil => exact startsTail_head htailed
    | cons c more =>
        intro hhead
        cases hhead
        exact hsingle more (by rw [hmore])

theorem readsBack_unrooted {url : Url} (h : IsWritten url) (hkind : url.kind = .other)
    (hauthority : url.authority = none) (hstart : url.path.head? ≠ some '/')
    (hencoded : Percent.IsEncoded Host.isControl url.path)
    (hwhole : ∀ c ∈ url.path, endsPath c = false) : url.ReadsBack := by
  have htailed := startsTail_tailText url
  have hbefore : url.beforeQuery = url.path := by
    unfold beforeQuery
    rw [hauthority]
    dsimp only
    split
    · rename_i rest hpath
      rw [hpath] at hstart
      exact absurd rfl hstart
    · rfl
  have hhead : (url.path ++ url.tailText).head? ≠ some '/' := by
    cases hpath : url.path with
    | nil => exact startsTail_head htailed
    | cons c rest =>
        rw [hpath] at hstart
        exact hstart
  unfold ReadsBack afterScheme?
  rw [← kind, hkind, hbefore]
  show readOther? url.scheme (url.path ++ url.tailText) = some url
  rw [readOther?_unrooted hhead, upToQuery_append hwhole htailed, Percent.encode_of_isEncoded hencoded]
  exact congrArg some (withTail_tailText h hwhole rfl hauthority.symm rfl)

theorem IsWritten.readsBack {url : Url} (h : IsWritten url) (hstands : url.Stands) :
    url.ReadsBack := by
  have hplace := h.place
  generalize hauthority : url.authority = authority at hplace
  generalize hpath : url.path = path at hplace
  cases hplace with
  | special hkind hwritten hpath' =>
      subst hpath
      exact readsBack_special h hkind hstands hauthority hwritten hpath'
  | file hkind hhost hpath' =>
      subst hpath
      exact readsBack_file h hkind hstands hauthority hhost hpath'
  | other hkind hwritten hpath' =>
      subst hpath
      exact readsBack_other h hkind hstands hauthority hwritten hpath'
  | rooted hkind hpath' =>
      subst hpath
      exact readsBack_rooted h hkind hauthority hpath'
  | opaquePath hkind hstart hencoded hwhole =>
      subst hpath
      exact readsBack_unrooted h hkind hauthority hstart hencoded hwhole

/-! ## The whole text -/

theorem EndsPlainly.append {front back : List Char} (hback : EndsPlainly back)
    (hfront : back = [] → EndsPlainly front) : EndsPlainly (front ++ back) := by
  cases back with
  | nil =>
      rw [List.append_nil]
      exact hfront rfl
  | cons c rest =>
      intro hlast
      rw [List.getLast?_append, List.getLast?_eq_some_getLast (List.cons_ne_nil c rest),
        Option.some_or] at hlast
      exact hback (by rw [List.getLast?_eq_some_getLast (List.cons_ne_nil c rest), hlast])

theorem mem_tailText {url : Url} (h : IsWritten url) {c : Char} (hc : c ∈ url.tailText) :
    c = '?' ∨ c = '#' ∨ inQuery url.kind c = false ∨ inFragment c = false := by
  unfold tailText queryText fragmentText at hc
  rcases List.mem_append.1 hc with hc | hc
  · split at hc
    · rename_i query hquery
      rcases List.mem_cons.1 hc with rfl | hc
      · exact .inl rfl
      · exact .inr (.inr (.inl (h.query query hquery c hc)))
    · cases hc
  · split at hc
    · rename_i fragment hfragment
      rcases List.mem_cons.1 hc with rfl | hc
      · exact .inr (.inl rfl)
      · exact .inr (.inr (.inr (h.fragment fragment hfragment c hc)))
    · cases hc

theorem noControl_tailText {url : Url} (h : IsWritten url) : NoControl url.tailText := by
  intro c hc
  rcases mem_tailText h hc with rfl | rfl | hquery | hfragment
  · decide
  · decide
  · exact high_of_not_inQuery hquery
  · exact high_of_not_inFragment hfragment

theorem tailText_endsPlainly {url : Url} (h : IsWritten url) : EndsPlainly url.tailText := by
  refine endsPlainly_of_not_mem fun hblank => ?_
  rcases mem_tailText h hblank with heq | heq | hquery | hfragment
  · cases heq
  · cases heq
  · have hescaped : inQuery url.kind ' ' = true := by cases url.kind <;> rfl
    rw [hescaped] at hquery
    cases hquery
  · cases hfragment

theorem tailText_eq_nil {url : Url} (h : url.tailText = []) :
    url.query = none ∧ url.fragment = none := by
  unfold tailText queryText fragmentText at h
  obtain ⟨hquery, hfragment⟩ := List.append_eq_nil_iff.1 h
  refine ⟨?_, ?_⟩
  · cases hsome : url.query with
    | none => rfl
    | some query =>
        rw [hsome] at hquery
        cases hquery
  · cases hsome : url.fragment with
    | none => rfl
    | some fragment =>
        rw [hsome] at hfragment
        cases hfragment

theorem IsWritten.isAuthority {url : Url} (h : IsWritten url) {authority : Authority}
    (hauthority : url.authority = some authority) : IsAuthority url.scheme authority := by
  have hplace := h.place
  rw [hauthority] at hplace
  cases hplace with
  | special _ hwritten _ => exact hwritten
  | file _ hhost _ => exact isAuthority_fileUrl _ hhost
  | other _ hwritten _ => exact hwritten

theorem IsWritten.noControl_path {url : Url} (h : IsWritten url) : NoControl url.path := by
  have hplace := h.place
  generalize url.authority = authority at hplace
  generalize url.path = path at hplace
  cases hplace with
  | special _ _ hpath => exact hpath.noControl
  | file _ _ hpath => exact hpath.isPath.noControl
  | other _ _ hpath =>
      rcases hpath with rfl | hpath
      · nofun
      · exact hpath.noControl
  | rooted _ hpath => exact hpath.noControl
  | opaquePath _ _ hencoded _ => exact fun c hc => high_of_not_control (hencoded c hc)

theorem IsWritten.path_whole {url : Url} (h : IsWritten url) :
    ∀ c ∈ url.path, endsPath c = false := by
  have hplace := h.place
  generalize url.authority = authority at hplace
  generalize url.path = path at hplace ⊢
  cases hplace with
  | special _ _ hpath => exact hpath.whole
  | file _ _ hpath => exact hpath.isPath.whole
  | other _ _ hpath =>
      rcases hpath with rfl | hpath
      · nofun
      · exact hpath.whole
  | rooted _ hpath => exact hpath.whole
  | opaquePath _ _ _ hwhole => exact hwhole

/-- What stands before the path. -/
def beforePath (url : Url) : List Char :=
  match url.authority with
  | some authority => '/' :: '/' :: authorityText authority
  | none => if url.path.take 2 == ['/', '/'] then ['/', '.'] else []

theorem beforeQuery_eq (url : Url) : url.beforeQuery = url.beforePath ++ url.path := by
  unfold beforePath
  cases hauthority : url.authority with
  | some authority => exact beforeQuery_authority hauthority
  | none =>
      unfold beforeQuery
      rw [hauthority]
      dsimp only
      split
      · rename_i rest hpath
        rw [hpath]
        rfl
      · rename_i hother
        have hsingle : (url.path.take 2 == ['/', '/']) = false := by
          rw [beq_eq_false_iff_ne]
          intro htake
          refine hother (url.path.drop 2) ?_
          rw [← List.take_append_drop 2 url.path, htake]
          rfl
        rw [hsingle]
        rfl

theorem beforePath_high {url : Url} (h : IsWritten url) :
    ∀ c ∈ url.beforePath, 0x20 < c.toNat := by
  intro c hc
  unfold beforePath at hc
  split at hc
  · rename_i authority hauthority
    rcases List.mem_cons.1 hc with rfl | hc
    · decide
    · rcases List.mem_cons.1 hc with rfl | hc
      · decide
      · exact (h.isAuthority hauthority).high c hc
  · split at hc
    · have hall : ∀ c ∈ ['/', '.'], 0x20 < c.toNat := by simp
      exact hall c hc
    · cases hc

theorem IsWritten.beforePath_whole {url : Url} (h : IsWritten url) :
    ∀ c ∈ url.beforePath, endsPath c = false := by
  intro c hc
  unfold beforePath at hc
  split at hc
  · rename_i authority hauthority
    rcases List.mem_cons.1 hc with rfl | hc
    · decide
    · rcases List.mem_cons.1 hc with rfl | hc
      · decide
      · have hends := authorityText_whole (h.isAuthority hauthority) .other c hc
        simp only [endsAuthority, Bool.or_eq_false_iff] at hends
        exact hends.1.2
  · split at hc
    · have hall : ∀ c ∈ ['/', '.'], endsPath c = false := eq_false_of_any (by decide)
      exact hall c hc
    · cases hc

/-- Nothing of the text of a URL is cleaned away. -/
theorem cleaned_text {url : Url} (h : IsWritten url) :
    cleaned url.text = url.scheme ++ ':' :: (url.beforeQuery ++ url.tailText) := by
  have hbefore := beforePath_high h
  have hcontrol : NoControl (url.scheme ++ ':' :: (url.beforeQuery ++ url.tailText)) := by
    refine NoControl.append (fun c hc => ?_) (NoControl.cons (by decide) ?_)
    · exact Nat.le_of_lt (high_of_inScheme (h.scheme.all c hc))
    · rw [beforeQuery_eq]
      refine NoControl.append (NoControl.append ?_ h.noControl_path) (noControl_tailText h)
      exact fun c hc => Nat.le_of_lt (hbefore c hc)
  have hstart : (url.scheme ++ ':' :: (url.beforeQuery ++ url.tailText)).head? ≠ some ' ' := by
    obtain ⟨c, more, hscheme, hletter⟩ := h.scheme.starts
    rw [hscheme]
    rintro hhead
    cases hhead
    cases hletter
  have hends : EndsPlainly (url.scheme ++ ':' :: (url.beforeQuery ++ url.tailText)) := by
    have hfront : EndsPlainly (url.scheme ++ [':']) := by
      intro hlast
      rw [List.getLast?_concat] at hlast
      cases hlast
    have hplain : url.tailText = [] → EndsPlainly url.beforeQuery := by
      intro hnil
      obtain ⟨hquery, hfragment⟩ := tailText_eq_nil hnil
      rw [beforeQuery_eq]
      refine (h.ends hquery hfragment).append fun _ => endsPlainly_of_not_mem fun hblank => ?_
      exact absurd (hbefore _ hblank) (by decide)
    have hwhole := EndsPlainly.append ((tailText_endsPlainly h).append hplain) fun _ => hfront
    rw [List.append_assoc] at hwhole
    exact hwhole
  rw [text_eq]
  exact cleaned_ofList hcontrol hstart hends

/-- The text of a URL in written form is read as that URL. -/
theorem read?_text {url : Url} (h : IsWritten url) (hstands : url.Stands) :
    read? url.text = some url := by
  unfold read? readAgainst?
  dsimp only
  rw [cleaned_text h, cutScheme?_append h.scheme]
  exact h.readsBack hstands

/-- A drive letter behind two slashes escapes its written form at first. -/
example : (read? "file:////C|/x").map text = some "file:///C|/x" ∧
    (read? "file:///C|/x").map text = some "file:///C:/x" := by decide +kernel

end Url

end SchemaGraph
