import Sqlery.Network.Address

/-!
# URLs

`urlparse` and `geturl` of `urllib.parse`, and what they make of the part of a
URL that names the server.  A URL that was split and is put together again with
another server splits into the same parts, but for the server.

Lower case is a parameter, as far as what splits a URL goes: text that has no
upper case stays as it is, and no character that splits URLs comes up.
-/

namespace Sqlery.Network

/-! ## The parts -/

/-- `ParseResult`. -/
structure ParseResult where
  scheme : Text
  netloc : Text
  path : Text
  params : Text
  query : Text
  fragment : Text
  deriving DecidableEq, Repr

/-- `_WHATWG_C0_CONTROL_OR_SPACE`. -/
def isControlOrSpace (c : Char) : Bool := c.toNat ≤ 32

/-- `_UNSAFE_URL_BYTES_TO_REMOVE`. -/
def isUnsafe (c : Char) : Bool := c = '\t' || c = '\r' || c = '\n'

/-- The end of a netloc. -/
def isDelimiter (c : Char) : Bool := c = '/' || c = '?' || c = '#'

/-- The characters that split a URL or are taken out of it. -/
def isSpecial (c : Char) : Bool :=
  isDelimiter c || isUnsafe c || c = '@' || c = '[' || c = ']' || c = ':' ||
    c = '%'

/-- `str.lower`. -/
structure Lowering where
  lower : Text → Text
  plain : ∀ text, (∀ c ∈ text, isAddressChar c = true) → lower text = text
  http : lower "http".toList = "http".toList
  https : lower "https".toList = "https".toList
  special : ∀ text c, c ∈ lower text → isSpecial c = true → c ∈ text

/-- What the calls of the standard library rest on. -/
structure Library extends Lowering where
  /-- `unicodedata.normalize("NFKC", text)`. -/
  normalize : Text → Text

/-- The letters, digits and signs of a scheme. -/
def isSchemeChar (c : Char) : Bool :=
  c.isAlphanum || c = '+' || c = '-' || c = '.'

def isScheme (text : Text) : Bool :=
  match text with
  | [] => false
  | c :: _ => c.isAlpha && text.all isSchemeChar

def splitScheme (lower : Text → Text) (url : Text) : Text × Text :=
  match partition ':' url with
  | (head, true, rest) =>
      if isScheme head then (lower head, rest) else ([], url)
  | (_, false, _) => ([], url)

/-- `_splitnetloc`. -/
def splitNetloc (url : Text) : Text × Text :=
  match url with
  | '/' :: '/' :: rest =>
      (rest.takeWhile (!isDelimiter ·), rest.dropWhile (!isDelimiter ·))
  | _ => ([], url)

/-- `_splitparams`. -/
def splitParams (url : Text) : Text × Text :=
  match rpartition '/' url with
  | (head, true, last) =>
      let (path, _, params) := partition ';' last
      (head ++ '/' :: path, params)
  | (_, false, last) =>
      let (path, _, params) := partition ';' last
      (path, params)

/-- `uses_params`. -/
def usesParams : List Text :=
  ["", "ftp", "hdl", "prospero", "http", "https", "shttp", "rtsp", "rtsps",
    "sip", "sips", "mms", "sftp", "tel"].map (·.toList)

/-- `uses_netloc`. -/
def usesNetloc : List Text :=
  ["", "ftp", "http", "gopher", "nntp", "telnet", "imap", "wais", "file",
    "mms", "https", "shttp", "snews", "prospero", "rtsp", "rtsps", "rtspu",
    "rsync", "svn", "svn+ssh", "sftp", "nfs", "git", "git+ssh", "ws", "wss",
    "itms-services"].map (·.toList)

/-- The path and the parameters of its last segment. -/
def splitPath (scheme url : Text) : Text × Text :=
  if scheme ∈ usesParams && ';' ∈ url then splitParams url else (url, [])

/-- The split of `urlparse`, before its checks. -/
def urlParts (lower : Text → Text) (url : Text) : ParseResult :=
  let url := (url.dropWhile isControlOrSpace).filter (!isUnsafe ·)
  let (scheme, url) := splitScheme lower url
  let (netloc, url) := splitNetloc url
  let (url, _, fragment) := partition '#' url
  let (url, _, query) := partition '?' url
  let (path, params) := splitPath scheme url
  { scheme, netloc, path, params, query, fragment }

/-! ## The server -/

/-- `_userinfo`. -/
def ParseResult.userinfo (parsed : ParseResult) :
    Option Text × Option Text :=
  match rpartition '@' parsed.netloc with
  | (userinfo, true, _) =>
      match partition ':' userinfo with
      | (username, true, password) => (some username, some password)
      | (username, false, _) => (some username, none)
  | (_, false, _) => (none, none)

def ParseResult.username (parsed : ParseResult) : Option Text :=
  parsed.userinfo.1

def ParseResult.password (parsed : ParseResult) : Option Text :=
  parsed.userinfo.2

/-- The host and the port of what is behind the `@`. -/
def splitHost (hostinfo : Text) : Text × Text :=
  match partition '[' hostinfo with
  | (_, true, bracketed) =>
      let (hostname, _, port) := partition ']' bracketed
      (hostname, (partition ':' port).2.2)
  | (_, false, _) =>
      let (hostname, _, port) := partition ':' hostinfo
      (hostname, port)

/-- `_hostinfo`. -/
def ParseResult.hostinfo (parsed : ParseResult) : Text × Option Text :=
  let (hostname, port) := splitHost (rpartition '@' parsed.netloc).2.2
  (hostname, if port = [] then none else some port)

def ParseResult.hostname (lower : Text → Text) (parsed : ParseResult) :
    Option Text :=
  let hostname := parsed.hostinfo.1
  if hostname = [] then none
  else
    let (address, zoned, zone) := partition '%' hostname
    some (lower address ++ if zoned then '%' :: zone else [])

/-- The port, or `none` where it raises. -/
def ParseResult.port (parsed : ParseResult) : Option (Option Nat) :=
  match parsed.hostinfo.2 with
  | none => some none
  | some port =>
      if port.all Char.isDigit then
        let value := Nat.ofDigitChars 10 port 0
        if value ≤ 65535 then some (some value) else none
      else none

/-! ## The checks -/

/-- `_check_bracketed_host`. -/
def bracketedHost (hostname : Text) : Bool :=
  match hostname with
  | 'v' :: future =>
      let (version, dotted, rest) := partition '.' future
      dotted && version ≠ [] && version.all (fun c => (hexValue c).isSome) &&
        rest ≠ [] && '\n' ∉ rest
  | _ =>
      match ipAddress hostname with
      | some (.v6 _ _) => true
      | _ => false

/-- `_check_bracketed_netloc`. -/
def bracketedNetloc (netloc : Text) : Bool :=
  let hostinfo := (rpartition '@' netloc).2.2
  match partition '[' hostinfo with
  | (before, true, bracketed) =>
      let (hostname, _, port) := partition ']' bracketed
      before = [] && (port = [] || port.head? = some ':') &&
        bracketedHost hostname
  | (_, false, _) => bracketedHost (partition ':' hostinfo).1

/-- `_checknetloc`. -/
def normalizedNetloc (normalize : Text → Text) (netloc : Text) : Bool :=
  let bare := netloc.filter fun c => !(c = '@' || c = ':' || c = '#' || c = '?')
  netloc.all (·.toNat < 128) || normalize bare = bare ||
    (normalize bare).all fun c =>
      !(c = '/' || c = '?' || c = '#' || c = '@' || c = ':')

def validNetloc (lib : Library) (netloc : Text) : Bool :=
  (if '[' ∈ netloc then ']' ∈ netloc && bracketedNetloc netloc
    else ']' ∉ netloc) &&
    normalizedNetloc lib.normalize netloc

/-- `urlparse`; where it raises `ValueError` there is no result. -/
def urlparse (lib : Library) (url : Text) : Option ParseResult :=
  let parsed := urlParts lib.lower url
  if validNetloc lib parsed.netloc then some parsed else none

/-! ## The parts put together -/

/-- `urlunsplit`. -/
def urlunsplit (scheme netloc url query fragment : Text) : Text :=
  let url :=
    if netloc ≠ [] then
      "//".toList ++ netloc ++
        if url ≠ [] && url.head? ≠ some '/' then '/' :: url else url
    else if "//".toList.isPrefixOf url then "//".toList ++ url
    else if scheme ≠ [] && scheme ∈ usesNetloc &&
        (url = [] || url.head? = some '/') then "//".toList ++ url
    else url
  let url := if scheme ≠ [] then scheme ++ ':' :: url else url
  let url := if query ≠ [] then url ++ '?' :: query else url
  if fragment ≠ [] then url ++ '#' :: fragment else url

def ParseResult.wholePath (parsed : ParseResult) : Text :=
  if parsed.params ≠ [] then parsed.path ++ ';' :: parsed.params
  else parsed.path

/-- `geturl`. -/
def ParseResult.geturl (parsed : ParseResult) : Text :=
  urlunsplit parsed.scheme parsed.netloc parsed.wholePath parsed.query
    parsed.fragment

/-! ## The round trip -/

/-- What the parts of a URL with a server are like. -/
structure WebUrl (parsed : ParseResult) : Prop where
  scheme : parsed.scheme = "http".toList ∨ parsed.scheme = "https".toList
  served : parsed.netloc ≠ []
  netloc : ∀ c ∈ parsed.netloc, isDelimiter c = false ∧ isUnsafe c = false
  path : ∀ c ∈ parsed.wholePath, isUnsafe c = false ∧ c ≠ '?' ∧ c ≠ '#'
  rooted : parsed.wholePath = [] ∨ parsed.wholePath.head? = some '/'
  params : splitPath parsed.scheme parsed.wholePath =
    (parsed.path, parsed.params)
  query : ∀ c ∈ parsed.query, isUnsafe c = false ∧ c ≠ '#'
  fragment : ∀ c ∈ parsed.fragment, isUnsafe c = false

/-- What follows the server in a URL. -/
def ParseResult.tail (parsed : ParseResult) : Text :=
  parsed.wholePath ++
    ((if parsed.query ≠ [] then '?' :: parsed.query else []) ++
      if parsed.fragment ≠ [] then '#' :: parsed.fragment else [])

section RoundTrip

variable {parsed : ParseResult} {lib : Library} {url : Text}

theorem WebUrl.geturl (web : WebUrl parsed) : parsed.geturl =
    parsed.scheme ++ ':' :: '/' :: '/' :: (parsed.netloc ++ parsed.tail) := by
  have rooted : (if parsed.wholePath ≠ [] &&
      parsed.wholePath.head? ≠ some '/' then '/' :: parsed.wholePath
      else parsed.wholePath) = parsed.wholePath := by
    rcases web.rooted with isNil | isRooted
    · simp [isNil]
    · simp [isRooted]
  have named : parsed.scheme ≠ [] := by
    rcases web.scheme with isHttp | isHttps
    · rw [isHttp]
      decide
    · rw [isHttps]
      decide
  unfold ParseResult.geturl urlunsplit ParseResult.tail
  simp only [rooted, if_pos web.served, if_pos named]
  by_cases query : parsed.query = []
  · by_cases fragment : parsed.fragment = []
    · simp [query, fragment]
    · simp [query, fragment]
  · by_cases fragment : parsed.fragment = []
    · simp [query, fragment]
    · simp [query, fragment]

theorem WebUrl.tail_safe (web : WebUrl parsed) :
    ∀ c ∈ parsed.tail, isUnsafe c = false := by
  intro c member
  rcases List.mem_append.mp member with inPath | later
  · exact (web.path c inPath).1
  · rcases List.mem_append.mp later with inQuery | inFragment
    · split at inQuery
      · rcases List.mem_cons.mp inQuery with rfl | inQuery
        · decide
        · exact (web.query c inQuery).1
      · cases inQuery
    · split at inFragment
      · rcases List.mem_cons.mp inFragment with rfl | inFragment
        · decide
        · exact web.fragment c inFragment
      · cases inFragment

theorem WebUrl.cleaned (web : WebUrl parsed) :
    ((parsed.geturl.dropWhile isControlOrSpace).filter (!isUnsafe ·)) =
      parsed.geturl := by
  have safe : ∀ c ∈ parsed.geturl, isUnsafe c = false := by
    rw [web.geturl]
    intro c member
    rcases List.mem_append.mp member with inScheme | later
    · have http : "http".toList.all (!isUnsafe ·) = true := by decide
      have https : "https".toList.all (!isUnsafe ·) = true := by decide
      rcases web.scheme with isHttp | isHttps
      · simpa using List.all_eq_true.mp http c (isHttp ▸ inScheme)
      · simpa using List.all_eq_true.mp https c (isHttps ▸ inScheme)
    · simp only [List.mem_cons, List.mem_append] at later
      rcases later with rfl | rfl | rfl | inNetloc | inTail
      · decide
      · decide
      · decide
      · exact (web.netloc c inNetloc).2
      · exact web.tail_safe c inTail
  have begins : parsed.geturl.dropWhile isControlOrSpace = parsed.geturl := by
    have first : ∃ rest, parsed.geturl = 'h' :: rest := by
      rw [web.geturl]
      rcases web.scheme with isHttp | isHttps
      · exact ⟨_, by rw [isHttp]; rfl⟩
      · exact ⟨_, by rw [isHttps]; rfl⟩
    obtain ⟨rest, isFirst⟩ := first
    rw [isFirst]
    rfl
  rw [begins]
  apply List.filter_eq_self.mpr
  intro c member
  rw [safe c member]
  rfl

theorem splitScheme_web (web : WebUrl parsed) (rest : Text) :
    splitScheme lib.lower (parsed.scheme ++ ':' :: rest) =
      (parsed.scheme, rest) := by
  unfold splitScheme
  rcases web.scheme with isHttp | isHttps
  · rw [isHttp, partition_append (by decide)]
    have named : isScheme "http".toList = true := by decide
    simp only [named, if_true, lib.http]
  · rw [isHttps, partition_append (by decide)]
    have named : isScheme "https".toList = true := by decide
    simp only [named, if_true, lib.https]

theorem WebUrl.tail_begins (web : WebUrl parsed) :
    parsed.tail = [] ∨ ∃ c rest, parsed.tail = c :: rest ∧
      isDelimiter c = true := by
  unfold ParseResult.tail
  rcases web.rooted with isNil | isRooted
  · rw [isNil, List.nil_append]
    by_cases query : parsed.query = []
    · by_cases fragment : parsed.fragment = []
      · simp [query, fragment]
      · exact Or.inr ⟨'#', parsed.fragment, by simp [query, fragment], rfl⟩
    · exact Or.inr ⟨'?', _, by simp [query]; rfl, rfl⟩
  · cases whole : parsed.wholePath with
    | nil =>
        rw [whole] at isRooted
        cases isRooted
    | cons c rest =>
        rw [whole] at isRooted
        cases isRooted
        exact Or.inr ⟨'/', _, rfl, rfl⟩

theorem splitNetloc_web (web : WebUrl parsed) :
    splitNetloc ('/' :: '/' :: (parsed.netloc ++ parsed.tail)) =
      (parsed.netloc, parsed.tail) := by
  have passes : ∀ c ∈ parsed.netloc, (!isDelimiter c) = true := by
    intro c member
    rw [(web.netloc c member).1]
    rfl
  simp only [splitNetloc, takeWhile_append_fresh passes,
    dropWhile_append_fresh passes]
  rcases web.tail_begins with isNil | ⟨c, rest, isTail, delimits⟩
  · simp [isNil]
  · simp [isTail, delimits]

/-- A URL that is put together of its parts splits into them. -/
theorem urlParts_geturl (web : WebUrl parsed) :
    urlParts lib.lower parsed.geturl = parsed := by
  have noHash : '#' ∉ parsed.wholePath ++
      (if parsed.query ≠ [] then '?' :: parsed.query else []) := by
    intro member
    rcases List.mem_append.mp member with inPath | inQuery
    · exact (web.path '#' inPath).2.2 rfl
    · split at inQuery
      · rcases List.mem_cons.mp inQuery with isMark | inQuery
        · exact absurd isMark (by decide)
        · exact (web.query '#' inQuery).2 rfl
      · cases inQuery
  have noMark : '?' ∉ parsed.wholePath := fun member =>
    (web.path '?' member).2.1 rfl
  have byFragment : (partition '#' parsed.tail).1 = parsed.wholePath ++
        (if parsed.query ≠ [] then '?' :: parsed.query else []) ∧
      (partition '#' parsed.tail).2.2 = parsed.fragment := by
    unfold ParseResult.tail
    rw [← List.append_assoc]
    by_cases fragment : parsed.fragment = []
    · simp only [fragment, ne_eq, not_true_eq_false, if_false,
        List.append_nil]
      rw [partition_absent noHash]
      exact ⟨rfl, rfl⟩
    · simp only [fragment, ne_eq, not_false_eq_true, if_true]
      rw [partition_append noHash]
      exact ⟨rfl, rfl⟩
  have byQuery : (partition '?' (parsed.wholePath ++
        (if parsed.query ≠ [] then '?' :: parsed.query else []))).1 =
        parsed.wholePath ∧
      (partition '?' (parsed.wholePath ++
        (if parsed.query ≠ [] then '?' :: parsed.query else []))).2.2 =
        parsed.query := by
    by_cases query : parsed.query = []
    · simp only [query, ne_eq, not_true_eq_false, if_false, List.append_nil]
      rw [partition_absent noMark]
      exact ⟨rfl, rfl⟩
    · simp only [query, ne_eq, not_false_eq_true, if_true]
      rw [partition_append noMark]
      exact ⟨rfl, rfl⟩
  unfold urlParts
  rw [web.cleaned, web.geturl]
  simp only [splitScheme_web web, splitNetloc_web web, byFragment.1,
    byFragment.2, byQuery.1, byQuery.2, web.params]

/-- Another server in its place. -/
theorem WebUrl.withNetloc (web : WebUrl parsed) {netloc : Text}
    (served : netloc ≠ [])
    (safe : ∀ c ∈ netloc, isDelimiter c = false ∧ isUnsafe c = false) :
    WebUrl { parsed with netloc } :=
  { web with served := served, netloc := safe }

/-- What a path is split into is what its parts are split into. -/
theorem splitPath_wholePath {scheme whole path params : Text}
    (rooted : whole = [] ∨ whole.head? = some '/')
    (isSplit : splitPath scheme whole = (path, params)) :
    (∀ c ∈ (if params ≠ [] then path ++ ';' :: params else path), c ∈ whole) ∧
      ((if params ≠ [] then path ++ ';' :: params else path) = [] ∨
        (if params ≠ [] then path ++ ';' :: params else path).head? =
          some '/') ∧
      splitPath scheme (if params ≠ [] then path ++ ';' :: params else path) =
        (path, params) := by
  by_cases splits :
    (decide (scheme ∈ usesParams) && decide (';' ∈ whole)) = true
  · have member : ';' ∈ whole := by
      simp only [Bool.and_eq_true, decide_eq_true_eq] at splits
      exact splits.2
    have slashed : '/' ∈ whole := by
      rcases rooted with rfl | isRooted
      · cases member
      · exact List.mem_of_head? isRooted
    have isWhole := isSplit
    rw [splitPath, if_pos splits, splitParams] at isSplit
    rcases rpartition_cases '/' whole with ⟨absent, _⟩ |
      ⟨head, last, isLast, fresh, isEq⟩
    · exact (absent slashed).elim
    · rw [isEq] at isSplit
      dsimp only at isSplit
      rcases partition_cases ';' last with ⟨_, noParams⟩ |
        ⟨segment, rest, isSegment, noMark, isParams⟩
      · rw [noParams] at isSplit
        cases isSplit
        rw [isLast] at rooted isWhole
        simp only [ne_eq, not_true_eq_false, if_false]
        exact ⟨fun c inside => isLast ▸ inside, rooted, isWhole⟩
      · rw [isParams] at isSplit
        cases isSplit
        by_cases none : rest = []
        · subst none
          have noSlash : '/' ∉ segment := fun inside => fresh (by
            rw [isSegment]
            exact List.mem_append_left _ inside)
          simp only [ne_eq, not_true_eq_false, if_false]
          refine ⟨?_, ?_, ?_⟩
          · intro c inside
            rw [isLast, isSegment]
            rcases List.mem_append.mp inside with early | late
            · exact List.mem_append_left _ early
            · apply List.mem_append_right
              rcases List.mem_cons.mp late with rfl | late
              · exact List.mem_cons_self
              · exact List.mem_cons_of_mem _ (List.mem_append_left _ late)
          · right
            rcases rooted with isNil | isRooted
            · rw [isNil] at slashed
              cases slashed
            · rw [isLast] at isRooted
              cases head with
              | nil => rfl
              | cons c head => exact isRooted
          · unfold splitPath
            split
            · rw [splitParams, rpartition_append noSlash]
              dsimp only
              rw [partition_absent noMark]
            · rfl
        · simp only [ne_eq, none, not_false_eq_true, if_true]
          have isOld : head ++ '/' :: segment ++ ';' :: rest = whole := by
            rw [isLast, isSegment]
            simp
          rw [isOld]
          exact ⟨fun c inside => inside, rooted, isWhole⟩
  · have isWhole := isSplit
    rw [splitPath, if_neg splits] at isSplit
    cases isSplit
    simp only [ne_eq, not_true_eq_false, if_false]
    exact ⟨fun c inside => inside, rooted, isWhole⟩

theorem splitNetloc_cases (url : Text) :
    (splitNetloc url = ([], url)) ∨ ∃ netloc rest,
      url = '/' :: '/' :: (netloc ++ rest) ∧ splitNetloc url = (netloc, rest) ∧
      (∀ c ∈ netloc, isDelimiter c = false) ∧
      (rest = [] ∨ ∃ c later, rest = c :: later ∧ isDelimiter c = true) := by
  unfold splitNetloc
  split
  · rename_i rest
    refine Or.inr ⟨_, _, ?_, rfl, ?_, ?_⟩
    · rw [List.takeWhile_append_dropWhile]
    · intro c member
      simpa using List.mem_takeWhile_imp member
    · cases left : rest.dropWhile (!isDelimiter ·) with
      | nil => exact Or.inl rfl
      | cons c later =>
          refine Or.inr ⟨c, later, rfl, ?_⟩
          have stops := @List.head_dropWhile_not _ (!isDelimiter ·) rest
            (by rw [left]; exact List.cons_ne_nil _ _)
          simpa [left] using stops
  · exact Or.inl rfl

theorem mem_splitScheme {lower : Text → Text} {c : Char}
    (member : c ∈ (splitScheme lower url).2) : c ∈ url := by
  unfold splitScheme at member
  rcases partition_cases ':' url with ⟨_, isEq⟩ | ⟨head, rest, isUrl, _, isEq⟩
  · rw [isEq] at member
    exact member
  · rw [isEq] at member
    dsimp only at member
    split at member
    · rw [isUrl]
      exact List.mem_append_right _ (List.mem_cons_of_mem _ member)
    · exact member

/-- What is left of the URL after its server begins with a slash when the
fragment and the query are off, if anything is left. -/
theorem rooted_path {rest : Text} (begins : rest = [] ∨ ∃ c later,
    rest = c :: later ∧ isDelimiter c = true) :
    (partition '?' (partition '#' rest).1).1 = [] ∨
      (partition '?' (partition '#' rest).1).1.head? = some '/' := by
  simp only [partition_fst]
  rcases begins with rfl | ⟨c, later, rfl, delimits⟩
  · exact Or.inl rfl
  · simp only [isDelimiter, Bool.or_eq_true, decide_eq_true_eq] at delimits
    rcases delimits with (rfl | rfl) | rfl
    · exact Or.inr (by simp)
    · exact Or.inl (by simp)
    · exact Or.inl (by simp)

/-- The parts of a URL with a server. -/
theorem webUrl_urlParts (served : (urlParts lib.lower url).netloc ≠ [])
    (scheme : (urlParts lib.lower url).scheme = "http".toList ∨
      (urlParts lib.lower url).scheme = "https".toList) :
    WebUrl (urlParts lib.lower url) := by
  have safe : ∀ c ∈ (url.dropWhile isControlOrSpace).filter (!isUnsafe ·),
      isUnsafe c = false := by
    intro c member
    simpa using (List.mem_filter.mp member).2
  unfold urlParts at served scheme ⊢
  dsimp only at served scheme ⊢
  generalize (url.dropWhile isControlOrSpace).filter (!isUnsafe ·) = cleaned
    at served scheme safe ⊢
  rcases splitNetloc_cases (splitScheme lib.lower cleaned).2 with noServer |
    ⟨netloc, rest, isUrl, isSplit, apart, begins⟩
  · rw [noServer] at served
    exact (served rfl).elim
  · have inside : ∀ c, c ∈ netloc ∨ c ∈ rest → isUnsafe c = false := by
      intro c member
      apply safe c (@mem_splitScheme cleaned lib.lower c ?_)
      rw [isUrl]
      simp only [List.mem_cons, List.mem_append]
      exact Or.inr (Or.inr member)
    rw [isSplit] at served ⊢
    dsimp only at served ⊢
    obtain ⟨kept, rooted, params⟩ := @splitPath_wholePath
      (splitScheme lib.lower cleaned).1 _ _ _ (rooted_path begins) rfl
    constructor
    · exact scheme
    · exact served
    · exact fun c member => ⟨apart c member, inside c (Or.inl member)⟩
    · intro c member
      have inPath := kept c member
      refine ⟨inside c (Or.inr (mem_partition_fst (mem_partition_fst inPath))),
        ?_, ?_⟩
      · intro isMark
        rw [isMark] at inPath
        exact not_mem_partition_fst inPath
      · intro isHash
        rw [isHash] at inPath
        exact not_mem_partition_fst (mem_partition_fst inPath)
    · exact rooted
    · exact params
    · intro c member
      refine ⟨inside c (Or.inr (mem_partition_fst (mem_partition_snd member))),
        ?_⟩
      intro isHash
      rw [isHash] at member
      exact not_mem_partition_fst (mem_partition_snd member)
    · exact fun c member => inside c (Or.inr (mem_partition_snd member))

end RoundTrip

/-! ## A server that is written out -/

/-- The host of a netloc, in brackets where it has colons. -/
def bracketed (host : Text) : Text :=
  if ':' ∈ host then '[' :: host ++ [']'] else host

def portText (port : Nat) : Text := ':' :: Nat.toDigits 10 port

/-- The text of a host: what takes it apart is not in it. -/
structure HostText (lib : Library) (host : Text) : Prop where
  nonempty : host ≠ []
  safe : ∀ c ∈ host, isDelimiter c = false ∧ isUnsafe c = false
  noUser : '@' ∉ host
  closed : ']' ∉ host
  bare : ':' ∉ host → '[' ∉ host
  lowered : lib.lower (partition '%' host).1 = (partition '%' host).1

section Server

variable {lib : Library} {host : Text} {parsed : ParseResult}

theorem digit_of_portText {port : Nat} {c : Char} (member : c ∈ portText port) :
    c = ':' ∨ c.isDigit = true := by
  rcases List.mem_cons.mp member with isColon | inDigits
  · exact Or.inl isColon
  · exact Or.inr (Nat.isDigit_of_mem_toDigits (by decide) (by decide) inDigits)

theorem fresh_portText {port : Nat} {c : Char} (notColon : c ≠ ':')
    (noDigit : c.isDigit = false) : c ∉ portText port := by
  intro member
  rcases digit_of_portText member with isColon | isDigit
  · exact notColon isColon
  · rw [noDigit] at isDigit
    cases isDigit

/-- The host and the port that were written. -/
theorem splitHost_bracketed (text : HostText lib host) {port : Text}
    (isPort : port = [] ∨ ∃ number, port = portText number) :
    splitHost (bracketed host ++ port) = (host, port.drop 1) := by
  have noBracket : '[' ∉ port := by
    rcases isPort with rfl | ⟨number, rfl⟩
    · exact List.not_mem_nil
    · exact fresh_portText (by decide) (by decide)
  have byColon : ∀ before : Text, ':' ∉ before →
      (partition ':' (before ++ port)).1 = before ∧
        (partition ':' (before ++ port)).2.2 = port.drop 1 := by
    intro before fresh
    rcases isPort with rfl | ⟨number, rfl⟩
    · rw [List.append_nil, partition_absent fresh]
      exact ⟨rfl, rfl⟩
    · rw [portText, partition_append fresh]
      exact ⟨rfl, rfl⟩
  unfold bracketed splitHost
  by_cases colon : ':' ∈ host
  · have isText : '[' :: host ++ [']'] ++ port =
        [] ++ '[' :: (host ++ ']' :: port) := by simp
    rw [if_pos colon, isText, partition_append List.not_mem_nil]
    dsimp only
    rw [partition_append text.closed]
    exact Prod.ext rfl (byColon [] List.not_mem_nil).2
  · have noOpen : '[' ∉ host ++ port := by
      intro member
      rcases List.mem_append.mp member with inHost | inPort
      · exact text.bare colon inHost
      · exact noBracket inPort
    rw [if_neg colon, partition_absent noOpen]
    exact Prod.ext (byColon host colon).1 (byColon host colon).2

theorem splitHost_served (text : HostText lib host) {userinfo port : Text}
    (isUser : userinfo = [] ∨ ∃ user, userinfo = user ++ ['@'])
    (isPort : port = [] ∨ ∃ number, port = portText number)
    (served : parsed.netloc = userinfo ++ bracketed host ++ port) :
    parsed.hostinfo =
      (host, if port.drop 1 = [] then none else some (port.drop 1)) := by
  have noUser : '@' ∉ bracketed host ++ port := by
    intro member
    rcases List.mem_append.mp member with inHost | inPort
    · unfold bracketed at inHost
      split at inHost
      · simp only [List.cons_append, List.mem_cons, List.mem_append,
          List.not_mem_nil, or_false] at inHost
        rcases inHost with isOpen | inHost | isClosed
        · exact absurd isOpen (by decide)
        · exact text.noUser inHost
        · exact absurd isClosed (by decide)
      · exact text.noUser inHost
    · rcases isPort with rfl | ⟨number, rfl⟩
      · cases inPort
      · exact fresh_portText (by decide) (by decide) inPort
  have isHost : (rpartition '@' parsed.netloc).2.2 =
    bracketed host ++ port := by
    rw [served]
    rcases isUser with rfl | ⟨user, rfl⟩
    · rw [List.nil_append, rpartition_absent noUser]
    · have isText : user ++ ['@'] ++ bracketed host ++ port =
          user ++ '@' :: (bracketed host ++ port) := by simp
      rw [isText, rpartition_append noUser]
  unfold ParseResult.hostinfo
  rw [isHost, splitHost_bracketed text isPort]

theorem hostname_served (text : HostText lib host) {port : Option Text}
    (isHost : parsed.hostinfo = (host, port)) :
    parsed.hostname lib.lower = some host := by
  unfold ParseResult.hostname
  rw [isHost]
  dsimp only
  rw [if_neg text.nonempty]
  have lowered := text.lowered
  rcases partition_cases '%' host with ⟨_, isEq⟩
    | ⟨address, zone, isZone, _, isEq⟩
  · rw [isEq] at lowered ⊢
    dsimp only at lowered ⊢
    rw [lowered]
    simp
  · rw [isEq] at lowered ⊢
    dsimp only at lowered ⊢
    rw [lowered, isZone]
    simp

theorem port_served {port : Nat} (small : port ≤ 65535)
    (isPort : parsed.hostinfo.2 = some (Nat.toDigits 10 port)) :
    parsed.port = some (some port) := by
  have digits : (Nat.toDigits 10 port).all Char.isDigit = true := by
    apply List.all_eq_true.mpr
    exact fun c member =>
      Nat.isDigit_of_mem_toDigits (by decide) (by decide) member
  unfold ParseResult.port
  rw [isPort]
  simp only [digits, if_true, Nat.ofDigitChars_ten_toDigits, small]

theorem port_le (parsed : ParseResult) {port : Nat}
    (isPort : parsed.port = some (some port)) : port ≤ 65535 := by
  unfold ParseResult.port at isPort
  split at isPort
  · cases isPort
  · split at isPort
    · dsimp only at isPort
      split at isPort
      · cases isPort
        assumption
      · cases isPort
    · cases isPort

theorem mem_splitHost {hostinfo : Text} {c : Char}
    (member : c ∈ (splitHost hostinfo).1) : c ∈ hostinfo := by
  unfold splitHost at member
  rcases partition_cases '[' hostinfo with ⟨_, isEq⟩ |
    ⟨before, inside, isText, _, isEq⟩
  · rw [isEq] at member
    exact mem_partition_fst member
  · rw [isEq] at member
    rw [isText]
    exact List.mem_append_right _
      (List.mem_cons_of_mem _ (mem_partition_fst member))

/-- A host with colons was in brackets. -/
theorem closed_splitHost {hostinfo : Text}
    (colon : ':' ∈ (splitHost hostinfo).1) : ']' ∉ (splitHost hostinfo).1 := by
  unfold splitHost at colon ⊢
  rcases partition_cases '[' hostinfo with ⟨_, isEq⟩ | ⟨_, _, _, _, isEq⟩
  · rw [isEq] at colon
    exact (not_mem_partition_fst colon).elim
  · rw [isEq]
    exact not_mem_partition_fst

theorem mem_hostinfo {c : Char} (member : c ∈ parsed.hostinfo.1) :
    c ∈ parsed.netloc ∧ c ≠ '@' := by
  have inHost := mem_splitHost member
  refine ⟨mem_rpartition_snd inHost, ?_⟩
  intro isUser
  rw [isUser] at inHost
  exact not_mem_rpartition_snd inHost

theorem plain_of_addressChar {c : Char} (isChar : isAddressChar c = true) :
    isSpecial c = true → c = ':' := by
  intro special
  simp only [isSpecial, isDelimiter, isUnsafe, Bool.or_eq_true,
    decide_eq_true_eq] at special
  have excluded : ['/', '?', '#', '\t', '\r', '\n', '@', '[', ']', '%'].all
      (!isAddressChar ·) = true := by
    decide
  by_contra notColon
  have listed : c ∈ ['/', '?', '#', '\t', '\r', '\n', '@', '[', ']', '%'] := by
    simp only [notColon, or_false, or_assoc] at special
    simpa only [List.mem_cons, List.not_mem_nil, or_false] using special
  have other := List.all_eq_true.mp excluded c listed
  rw [isChar] at other
  cases other

/-- The text may stand in a host, or between its brackets. -/
def SafeText (text : Text) : Prop :=
  ∀ c ∈ text, isDelimiter c = false ∧ isUnsafe c = false ∧ c ≠ '@' ∧ c ≠ ']'

/-- The zone of an address after its `%`. -/
theorem safe_zone {scope : Option Text} :
    (∀ zone, scope = some zone → SafeText zone) →
      SafeText (match scope with
        | some zone => '%' :: zone
        | none => []) := by
  intro safe c member
  cases scope with
  | none => cases member
  | some zone =>
      rcases List.mem_cons.mp member with rfl | inZone
      · decide
      · exact safe zone rfl c inZone

/-- The text of an address is the text of a host. -/
theorem hostText_text (lib : Library) {ip : IpAddress}
    (safe : ∀ value scope, ip = .v6 value (some scope) → SafeText scope) :
    HostText lib ip.text := by
  have plain : ∀ {address : Text},
      (∀ c ∈ address, isAddressChar c = true) → ∀ c ∈ address,
        isDelimiter c = false ∧ isUnsafe c = false ∧ c ≠ '@' ∧ c ≠ ']' ∧
          c ≠ '[' ∧ c ≠ '%' := by
    intro address characters c member
    have only := plain_of_addressChar (characters c member)
    have colon : isDelimiter ':' = false ∧ isUnsafe ':' = false := by decide
    have never : ∀ other, isSpecial other = true → other ≠ ':' → c ≠ other := by
      intro other special different isOther
      exact different (isOther ▸ only (isOther ▸ special))
    refine ⟨?_, ?_, never '@' (by decide) (by decide),
      never ']' (by decide) (by decide), never '[' (by decide) (by decide),
      never '%' (by decide) (by decide)⟩
    · by_contra delimits
      rw [Bool.not_eq_false] at delimits
      have isColon := only (by simp [isSpecial, delimits])
      rw [isColon, colon.1] at delimits
      cases delimits
    · by_contra unsafe_
      rw [Bool.not_eq_false] at unsafe_
      have isColon := only (by simp [isSpecial, unsafe_])
      rw [isColon, colon.2] at unsafe_
      cases unsafe_
  have nonempty : ∀ {text : Text} {c : Char}, c ∈ text → text ≠ [] := by
    intro text c member isNil
    rw [isNil] at member
    cases member
  cases ip with
  | v4 value =>
      have characters : ∀ c ∈ ipv4Text value, isAddressChar c = true :=
        fun c member => (isAddressChar_ipv4Text member).1
      have noZone : '%' ∉ ipv4Text value := fun member =>
        (plain characters '%' member).2.2.2.2.2 rfl
      have dotted : '.' ∈ ipv4Text value := sep_mem_joined (by simp)
      refine ⟨nonempty dotted, ?_, ?_, ?_, ?_, ?_⟩
      · exact fun c member =>
          ⟨(plain characters c member).1, (plain characters c member).2.1⟩
      · exact fun member => (plain characters '@' member).2.2.1 rfl
      · exact fun member => (plain characters ']' member).2.2.2.1 rfl
      · exact fun _ member => (plain characters '[' member).2.2.2.2.1 rfl
      · change lib.lower (partition '%' (ipv4Text value)).1 =
          (partition '%' (ipv4Text value)).1
        rw [partition_absent noZone]
        exact lib.plain _ characters
  | v6 value scope =>
      obtain ⟨address, isText, characters, colon⟩ := text_v6 value scope
      have noZone : '%' ∉ address := fun member =>
        (plain characters '%' member).2.2.2.2.2 rfl
      have zoneSafe := @safe_zone scope fun zone isZone =>
        safe value zone (by rw [isZone])
      have all : ∀ c ∈ (IpAddress.v6 value scope).text,
          isDelimiter c = false ∧ isUnsafe c = false ∧ c ≠ '@' ∧ c ≠ ']' := by
        rw [isText]
        intro c member
        rcases List.mem_append.mp member with inAddress | inZone
        · have isPlain := plain characters c inAddress
          exact ⟨isPlain.1, isPlain.2.1, isPlain.2.2.1, isPlain.2.2.2.1⟩
        · exact zoneSafe c inZone
      have isColon : ':' ∈ (IpAddress.v6 value scope).text := by
        rw [isText]
        exact List.mem_append_left _ colon
      refine ⟨nonempty isColon, ?_, ?_, ?_, ?_, ?_⟩
      · exact fun c member => ⟨(all c member).1, (all c member).2.1⟩
      · exact fun member => (all '@' member).2.2.1 rfl
      · exact fun member => (all ']' member).2.2.2 rfl
      · exact fun noColon => (noColon isColon).elim
      · rw [isText]
        cases scope with
        | none =>
            rw [List.append_nil, partition_absent noZone]
            exact lib.plain _ characters
        | some zone =>
            rw [partition_append noZone]
            exact lib.plain _ characters

end Server

end Sqlery.Network
