import Sqlery.Network.Url

/-!
# Webhook targets

The check of a webhook URL against the networks a delivery may not go to, and
the URL that is pinned to the address that passed it.
-/

namespace Sqlery.Webhooks

open Network

/-! ## The source -/

/-- `BLOCKED_V4_NETS`. -/
def blockedV4Nets : List IpNetwork :=
  [.v4 (ofOctets 127 0 0 0) 8, .v4 (ofOctets 10 0 0 0) 8,
    .v4 (ofOctets 172 16 0 0) 12, .v4 (ofOctets 192 168 0 0) 16,
    .v4 (ofOctets 169 254 0 0) 16, .v4 (ofOctets 0 0 0 0) 8,
    .v4 (ofOctets 100 64 0 0) 10]

/-- `BLOCKED_V6_NETS`. -/
def blockedV6Nets : List IpNetwork :=
  [.v6 1 128, .v6 0 128, .v6 (0xfe80 <<< 112) 10, .v6 (0xfc00 <<< 112) 7]

/-- `BLOCKED_HOSTNAMES`. -/
def blockedHostnames : List Text :=
  ["localhost", "metadata.google.internal", "metadata"].map (·.toList)

def loopbackV4 : IpNetwork := .v4 (ofOctets 127 0 0 0) 8

def loopbackV6 : IpNetwork := .v6 1 128

/-- `_ip_blocked`. -/
def ipBlocked (allowLoopback : Bool) (ip : IpAddress) : Bool :=
  match ip with
  | .v4 _ => blockedV4Nets.any fun net =>
      net.contains ip && !(allowLoopback && net = loopbackV4)
  | .v6 _ _ => blockedV6Nets.any fun net =>
      net.contains ip && !(allowLoopback && net = loopbackV6)

structure ResolvedTarget where
  scheme : Text
  host : Text
  port : Option Nat
  ip : Text
  deriving DecidableEq, Repr

/-- Why `WebhookURLBlocked` is raised. -/
inductive Reason where
  | schemeNotAllowed (scheme : Text)
  | missingHost
  | hostnameBlocked (host : Text)
  | ipBlocked (ip : IpAddress)
  | dnsFailure (host : Text)
  | unparseable (address : Text)
  | resolvedBlocked (host : Text) (ip : IpAddress)
  | noAddresses (host : Text)
  | invalidPort
  deriving DecidableEq, Repr

inductive Refusal where
  | blocked (reason : Reason)
  /-- `ValueError`. -/
  | invalid
  deriving DecidableEq, Repr

/-- What `getaddrinfo` answers: the addresses, `gaierror` or an error for a name
that cannot be encoded. -/
inductive Answer where
  | addresses (infos : List Text)
  | failure
  | unencodable

/-- The port is written out if there is one; zero counts as none. -/
def portPart (port : Option Nat) : Text :=
  match port with
  | some port => if port ≠ 0 then portText port else []
  | none => []

def userPart (parsed : ParseResult) : Text :=
  match parsed.username with
  | some username =>
      username ++ (match parsed.password with
        | some password => if password ≠ [] then ':' :: password else []
        | none => []) ++ ['@']
  | none => []

/-- `pin_url`. -/
def pinUrl (lib : Library) (url : Text) (target : ResolvedTarget) :
    Option (Text × Text) :=
  (urlparse lib url).map fun parsed =>
    let netloc := userPart parsed ++ bracketed target.ip ++ portPart target.port
    ({ parsed with netloc }.geturl,
      bracketed target.host ++ portPart target.port)

/-- `_explicit_port`. -/
def explicitPort (parsed : ParseResult) : Except Refusal (Option Nat) :=
  match parsed.port with
  | some port => .ok port
  | none => .error (.blocked .invalidPort)

/-- The loop over the answers of the resolver. -/
def checkAnswers (allowLoopback : Bool) (host : Text) :
    List Text → Option Text → Except Refusal (Option Text)
  | [], chosen => .ok chosen
  | info :: infos, chosen =>
      match ipAddress info with
      | none => .error (.blocked (.unparseable info))
      | some ip =>
          if ipBlocked allowLoopback ip then
            .error (.blocked (.resolvedBlocked host ip))
          else checkAnswers allowLoopback host infos (chosen.or (some ip.text))

def hostOf (lib : Library) (parsed : ParseResult) : Text :=
  lib.lower ((parsed.hostname lib.lower).getD [])

/-- `resolve_webhook_url`. -/
def resolveWebhookUrl (lib : Library) (getaddrinfo : Text → Answer)
    (allowLoopback : Bool) (url : Text) : Except Refusal ResolvedTarget :=
  match urlparse lib url with
  | none => .error .invalid
  | some parsed =>
      let host := hostOf lib parsed
      if parsed.scheme ∉ ["http".toList, "https".toList] then
        .error (.blocked (.schemeNotAllowed parsed.scheme))
      else if host = [] then .error (.blocked .missingHost)
      else if host ∈ blockedHostnames then
        .error (.blocked (.hostnameBlocked host))
      else match ipAddress host with
        | some ip =>
            if ipBlocked allowLoopback ip then .error (.blocked (.ipBlocked ip))
            else do
              let port ← explicitPort parsed
              .ok ⟨parsed.scheme, host, port, ip.text⟩
        | none =>
            match getaddrinfo host with
            | .failure => .error (.blocked (.dnsFailure host))
            | .unencodable => .error .invalid
            | .addresses infos => do
                match ← checkAnswers allowLoopback host infos none with
                | none => .error (.blocked (.noAddresses host))
                | some chosen =>
                    let port ← explicitPort parsed
                    .ok ⟨parsed.scheme, host, port, chosen⟩

/-! ## Where a delivery goes -/

/-- The addresses the host denotes or resolves to. -/
def destinations (lib : Library) (getaddrinfo : Text → Answer)
    (parsed : ParseResult) : List IpAddress :=
  match ipAddress (hostOf lib parsed) with
  | some ip => [ip]
  | none =>
      match getaddrinfo (hostOf lib parsed) with
      | .addresses infos => infos.filterMap ipAddress
      | _ => []

/-- Each of the answers is an address. -/
def Readable (lib : Library) (getaddrinfo : Text → Answer)
    (parsed : ParseResult) : Prop :=
  ipAddress (hostOf lib parsed) = none →
    ∀ infos, getaddrinfo (hostOf lib parsed) = .addresses infos →
      ∀ info ∈ infos, ipAddress info ≠ none

/-- The address a connection goes to is in none of the blocked networks. -/
def Outside (ip : IpAddress) : Prop :=
  ∀ net ∈ blockedV4Nets ++ blockedV6Nets, net.contains ip.unmapped = false

/-- The target is outside the blocked networks, and the pinned URL is the URL
with the validated address for its host. -/
structure Sound (lib : Library) (getaddrinfo : Text → Answer) (url : Text)
    (target : ResolvedTarget) (parsed : ParseResult) : Prop where
  isParsed : urlparse lib url = some parsed
  scheme : target.scheme = parsed.scheme ∧
    parsed.scheme ∈ ["http".toList, "https".toList]
  outside : ∀ ip ∈ destinations lib getaddrinfo parsed, Outside ip
  validated : ∃ ip ∈ destinations lib getaddrinfo parsed, target.ip = ip.text
  pinned : ∃ pinned header, pinUrl lib url target = some (pinned, header) ∧
    ∃ netloc, urlParts lib.lower pinned = { parsed with netloc } ∧
      (urlParts lib.lower pinned).hostname lib.lower = some target.ip ∧
      (urlParts lib.lower pinned).port = parsed.port

/-- The URL passes each check of the source. -/
structure Passes (lib : Library) (getaddrinfo : Text → Answer)
    (parsed : ParseResult) : Prop where
  scheme : parsed.scheme ∈ ["http".toList, "https".toList]
  named : hostOf lib parsed ≠ []
  allowed : hostOf lib parsed ∉ blockedHostnames
  readable : Readable lib getaddrinfo parsed
  answered : destinations lib getaddrinfo parsed ≠ []
  admitted : ∀ ip ∈ destinations lib getaddrinfo parsed,
    ipBlocked false ip = false
  port : parsed.port ≠ none

/-- No destination is a blocked IPv4 address that is written as an IPv6
address. -/
def NoneMapped (lib : Library) (getaddrinfo : Text → Answer)
    (parsed : ParseResult) : Prop :=
  ∀ ip ∈ destinations lib getaddrinfo parsed, ∀ value scope mapped,
    ip = .v6 value scope → ipv4Mapped value = some mapped →
    ∀ net ∈ blockedV4Nets, net.contains (.v4 mapped) = false

/-! ## What is accepted -/

section Accepted

variable {lib : Library} {getaddrinfo : Text → Answer} {url host : Text}
variable {parsed : ParseResult} {target : ResolvedTarget}

theorem checkAnswers_ok {allowLoopback : Bool} {infos : List Text}
    {chosen result : Option Text} :
    checkAnswers allowLoopback host infos chosen = .ok result ↔
      (∀ info ∈ infos, ipAddress info ≠ none) ∧
      (∀ ip ∈ infos.filterMap ipAddress,
        ipBlocked allowLoopback ip = false) ∧
      result = chosen.or
        ((infos.filterMap ipAddress).head?.map IpAddress.text) := by
  induction infos generalizing chosen with
  | nil =>
      simp [checkAnswers]
      exact eq_comm
  | cons info infos ih =>
      unfold checkAnswers
      cases isAddress : ipAddress info with
      | none => simp [isAddress]
      | some ip =>
          cases blocked : ipBlocked allowLoopback ip with
          | true => simp [isAddress, blocked]
          | false =>
              have goesOn := @ih (chosen.or (some ip.text))
              dsimp only
              rw [blocked, if_neg Bool.false_ne_true, goesOn]
              simp [isAddress, blocked]

theorem destinations_literal {ip : IpAddress}
    (literal : ipAddress (hostOf lib parsed) = some ip) :
    destinations lib getaddrinfo parsed = [ip] := by
  simp only [destinations, literal]

theorem destinations_resolved {infos : List Text}
    (literal : ipAddress (hostOf lib parsed) = none)
    (answer : getaddrinfo (hostOf lib parsed) = .addresses infos) :
    destinations lib getaddrinfo parsed = infos.filterMap ipAddress := by
  simp only [destinations, literal, answer]

theorem withPort_ok {make : Option Nat → ResolvedTarget}
    (returned : (do
      let port ← explicitPort parsed
      Except.ok (make port)) = .ok target) :
    ∃ port, parsed.port = some port ∧ target = make port := by
  unfold explicitPort at returned
  cases isPort : parsed.port with
  | none =>
      rw [isPort] at returned
      cases returned
  | some port =>
      rw [isPort] at returned
      exact ⟨port, rfl, (Except.ok.inj returned).symm⟩

theorem withPort_eq {make : Option Nat → ResolvedTarget} {port : Option Nat}
    (isPort : parsed.port = some port) : (do
      let port ← explicitPort parsed
      Except.ok (make port)) = .ok (make port) := by
  unfold explicitPort
  rw [isPort]
  rfl

/-- A target is returned when the URL passes each check: the first of the
addresses. -/
theorem resolveWebhookUrl_ok :
    resolveWebhookUrl lib getaddrinfo false url = .ok target ↔
      ∃ parsed, urlparse lib url = some parsed ∧
        Passes lib getaddrinfo parsed ∧ ∃ port ip,
          parsed.port = some port ∧
          (destinations lib getaddrinfo parsed).head? = some ip ∧
          target = ⟨parsed.scheme, hostOf lib parsed, port, ip.text⟩ := by
  constructor
  · intro returned
    unfold resolveWebhookUrl at returned
    cases isParsed : urlparse lib url with
    | none =>
        rw [isParsed] at returned
        cases returned
    | some parsed =>
        rw [isParsed] at returned
        dsimp only at returned
        split at returned
        · cases returned
        split at returned
        · cases returned
        split at returned
        · cases returned
        rename_i scheme named allowed
        refine ⟨parsed, rfl, ?_⟩
        have passes : ∀ {port : Option Nat}, parsed.port = some port →
            Readable lib getaddrinfo parsed →
            destinations lib getaddrinfo parsed ≠ [] →
            (∀ ip ∈ destinations lib getaddrinfo parsed,
              ipBlocked false ip = false) → Passes lib getaddrinfo parsed := by
          intro port isPort readable answered admitted
          refine ⟨not_not.mp scheme, named, allowed, readable, answered,
            admitted, ?_⟩
          rw [isPort]
          exact nofun
        cases literal : ipAddress (hostOf lib parsed) with
        | some ip =>
            rw [literal] at returned
            dsimp only at returned
            have denoted : destinations lib getaddrinfo parsed = [ip] :=
              destinations_literal literal
            split at returned
            · cases returned
            · rename_i admitted
              obtain ⟨port, isPort, isTarget⟩ := withPort_ok returned
              refine ⟨passes isPort ?_ ?_ ?_, port, ip, isPort, ?_, isTarget⟩
              · intro isNone
                rw [literal] at isNone
                cases isNone
              · rw [denoted]
                exact List.cons_ne_nil _ _
              · rw [denoted]
                intro other member
                rw [List.mem_singleton.mp member]
                exact Bool.eq_false_iff.mpr admitted
              · rw [denoted]
                rfl
        | none =>
            rw [literal] at returned
            dsimp only at returned
            cases answer : getaddrinfo (hostOf lib parsed) with
            | failure =>
                rw [answer] at returned
                cases returned
            | unencodable =>
                rw [answer] at returned
                cases returned
            | addresses infos =>
                rw [answer] at returned
                dsimp only at returned
                have resolved := destinations_resolved literal answer
                cases checked : checkAnswers false (hostOf lib parsed) infos
                    none with
                | error refusal =>
                    rw [checked] at returned
                    cases returned
                | ok chosen =>
                    rw [checked] at returned
                    obtain ⟨readable, admitted, isChosen⟩ :=
                      checkAnswers_ok.mp checked
                    rw [Option.none_or] at isChosen
                    cases first : (infos.filterMap ipAddress).head? with
                    | none =>
                        rw [first] at isChosen
                        cases isChosen
                        cases returned
                    | some ip =>
                        rw [first] at isChosen
                        cases isChosen
                        obtain ⟨port, isPort, isTarget⟩ := withPort_ok returned
                        refine ⟨passes isPort ?_ ?_ ?_, port, ip, isPort, ?_,
                          isTarget⟩
                        · intro _ others isAnswer
                          cases answer.symm.trans isAnswer
                          exact readable
                        · rw [resolved]
                          intro isNil
                          rw [isNil] at first
                          cases first
                        · rw [resolved]
                          exact admitted
                        · rw [resolved]
                          exact first
  · intro accepted
    obtain ⟨parsed, isParsed, passes, port, ip, isPort, first, rfl⟩ := accepted
    unfold resolveWebhookUrl
    rw [isParsed]
    dsimp only
    rw [if_neg (not_not.mpr passes.scheme), if_neg passes.named,
      if_neg passes.allowed]
    cases literal : ipAddress (hostOf lib parsed) with
    | some denoted =>
        have only : destinations lib getaddrinfo parsed = [denoted] :=
          destinations_literal literal
        rw [only] at first
        cases first
        have admitted := passes.admitted ip (by
          rw [only]
          exact List.mem_singleton_self ip)
        dsimp only
        rw [admitted]
        simp only [Bool.false_eq_true, if_false]
        exact withPort_eq isPort
    | none =>
        dsimp only
        cases answer : getaddrinfo (hostOf lib parsed) with
        | failure =>
            simp [destinations, literal, answer] at first
        | unencodable =>
            simp [destinations, literal, answer] at first
        | addresses infos =>
            have resolved := destinations_resolved literal answer
            rw [resolved] at first
            have checked : checkAnswers false (hostOf lib parsed) infos none =
                .ok (some ip.text) := by
              apply checkAnswers_ok.mpr
              refine ⟨passes.readable literal infos answer, ?_, ?_⟩
              · rw [← resolved]
                exact passes.admitted
              · rw [first]
                rfl
            dsimp only
            rw [checked]
            exact withPort_eq isPort

end Accepted

/-! ## The pinned URL -/

section Pinned

variable {lib : Library} {getaddrinfo : Text → Answer} {url host : Text}
variable {parsed : ParseResult} {target : ResolvedTarget}

theorem parts_of_urlparse (isParsed : urlparse lib url = some parsed) :
    parsed = urlParts lib.lower url := by
  unfold urlparse at isParsed
  dsimp only at isParsed
  split at isParsed
  · exact (Option.some.inj isParsed).symm
  · cases isParsed

/-- The characters that split a URL come into the host from the netloc, but for
the sign before a zone. -/
theorem mem_hostOf {c : Char} (special : isSpecial c = true) (notZone : c ≠ '%')
    (member : c ∈ hostOf lib parsed) : c ∈ parsed.hostinfo.1 := by
  have inName := lib.special _ c member special
  unfold ParseResult.hostname at inName
  dsimp only at inName
  split at inName
  · cases inName
  · rename_i named
    rcases partition_cases '%' parsed.hostinfo.1 with ⟨_, isEq⟩ |
      ⟨address, zone, isHost, _, isEq⟩
    · rw [isEq] at inName
      simp only [Option.getD_some, Bool.false_eq_true, if_false,
        List.append_nil] at inName
      exact lib.special _ c inName special
    · rw [isEq] at inName
      simp only [Option.getD_some, if_true, List.mem_append,
        List.mem_cons] at inName
      rw [isHost]
      rcases inName with inAddress | isZone | inZone
      · exact List.mem_append_left _ (lib.special _ c inAddress special)
      · exact (notZone isZone).elim
      · exact List.mem_append_right _ (List.mem_cons_of_mem _ inZone)

/-- The host is not empty only where there is a server. -/
theorem served_of_named (named : hostOf lib parsed ≠ []) :
    parsed.netloc ≠ [] := by
  intro isNil
  apply named
  have noHost : parsed.hostinfo.1 = [] := by
    unfold ParseResult.hostinfo
    rw [isNil]
    rfl
  unfold hostOf ParseResult.hostname
  rw [noHost]
  exact lib.plain [] nofun

theorem webUrl_of_passes (isParsed : urlparse lib url = some parsed)
    (passes : Passes lib getaddrinfo parsed) : WebUrl parsed := by
  have isParts := parts_of_urlparse isParsed
  have served := served_of_named passes.named
  have scheme := passes.scheme
  rw [isParts] at served scheme ⊢
  apply webUrl_urlParts served
  simpa using scheme

/-- A zone in the URL has none of the characters that split it. -/
theorem safe_zone (web : WebUrl parsed) {value : BitVec 128} {scope : Text}
    (literal : ipAddress (hostOf lib parsed) = some (.v6 value (some scope))) :
    SafeText scope := by
  have colon : ':' ∈ parsed.hostinfo.1 :=
    mem_hostOf (by decide) (by decide)
      (colon_of_parseIpv6 (parseIpv6_of_ipAddress literal))
  have closed : ']' ∉ parsed.hostinfo.1 := closed_splitHost colon
  obtain ⟨address, isHost⟩ := scope_of_ipAddress literal
  intro c member
  have inHost : c ∈ hostOf lib parsed := by
    rw [isHost]
    exact List.mem_append_right _ (List.mem_cons_of_mem _ member)
  by_cases isZone : c = '%'
  · rw [isZone]
    decide
  · by_cases special : isSpecial c = true
    · have inNetloc := mem_hostinfo (mem_hostOf special isZone inHost)
      have safe := web.netloc c inNetloc.1
      refine ⟨safe.1, safe.2, inNetloc.2, ?_⟩
      intro isClosed
      rw [isClosed] at special isZone inHost
      exact closed (mem_hostOf special isZone inHost)
    · have plain : ∀ other, isSpecial other = true → c ≠ other := by
        intro other isOther same
        exact special (same ▸ isOther)
      simp only [isSpecial, Bool.or_eq_true, not_or] at special
      refine ⟨?_, ?_, plain '@' (by decide), plain ']' (by decide)⟩
      · exact Bool.eq_false_iff.mpr special.1.1.1.1.1.1
      · exact Bool.eq_false_iff.mpr special.1.1.1.1.1.2

/-- The text of a destination is the text of a host. -/
theorem hostText_destination (web : WebUrl parsed)
    (plain : ∀ host infos, getaddrinfo host = .addresses infos →
      ∀ info ∈ infos, SafeText info) {ip : IpAddress}
    (isDestination : ip ∈ destinations lib getaddrinfo parsed) :
    HostText lib ip.text := by
  apply hostText_text
  intro value scope isV6
  subst isV6
  cases literal : ipAddress (hostOf lib parsed) with
  | some denoted =>
      rw [destinations_literal literal, List.mem_singleton] at isDestination
      exact safe_zone web (isDestination ▸ literal)
  | none =>
      cases answer : getaddrinfo (hostOf lib parsed) with
      | failure => simp [destinations, literal, answer] at isDestination
      | unencodable => simp [destinations, literal, answer] at isDestination
      | addresses infos =>
          rw [destinations_resolved literal answer, List.mem_filterMap]
            at isDestination
          obtain ⟨info, listed, isAddress⟩ := isDestination
          obtain ⟨address, isText⟩ := scope_of_ipAddress isAddress
          intro c member
          apply plain _ infos answer info listed c
          rw [isText]
          exact List.mem_append_right _ (List.mem_cons_of_mem _ member)

theorem mem_userPart {c : Char} (member : c ∈ userPart parsed) :
    c ∈ parsed.netloc ∨ c = ':' ∨ c = '@' := by
  unfold userPart ParseResult.username ParseResult.password
    ParseResult.userinfo at member
  rcases rpartition_cases '@' parsed.netloc with ⟨_, isEq⟩ |
    ⟨user, server, isNetloc, _, isEq⟩
  · rw [isEq] at member
    cases member
  · rw [isEq] at member
    dsimp only at member
    have inside : ∀ c ∈ user, c ∈ parsed.netloc := by
      intro c member
      rw [isNetloc]
      exact List.mem_append_left _ member
    rcases partition_cases ':' user with ⟨_, isUser⟩ |
      ⟨username, password, isPair, _, isUser⟩
    · rw [isUser] at member
      simp only [List.append_nil, List.mem_append, List.mem_singleton] at member
      exact member.imp (inside c) Or.inr
    · rw [isUser] at member
      simp only [List.mem_append, List.mem_singleton] at member
      rcases member with (inName | inPassword) | isUserSign
      · left
        apply inside
        rw [isPair]
        exact List.mem_append_left _ inName
      · split at inPassword
        · rcases List.mem_cons.mp inPassword with isColon | inPassword
          · exact Or.inr (Or.inl isColon)
          · left
            apply inside
            rw [isPair]
            exact List.mem_append_right _ (List.mem_cons_of_mem _ inPassword)
        · cases inPassword
      · exact Or.inr (Or.inr isUserSign)

theorem userPart_ends (parsed : ParseResult) :
    userPart parsed = [] ∨ ∃ user, userPart parsed = user ++ ['@'] := by
  unfold userPart
  split
  · exact Or.inr ⟨_, rfl⟩
  · exact Or.inl rfl

theorem portPart_cases (port : Option Nat) :
    portPart port = [] ∨ ∃ number, portPart port = portText number := by
  unfold portPart
  split
  · split
    · exact Or.inr ⟨_, rfl⟩
    · exact Or.inl rfl
  · exact Or.inl rfl

/-- The pinned URL splits into the parts of the URL, with the validated address
for its host. -/
theorem pinUrl_parts (isParsed : urlparse lib url = some parsed)
    (web : WebUrl parsed) (text : HostText lib target.ip) :
    ∃ pinned header netloc, pinUrl lib url target = some (pinned, header) ∧
      urlParts lib.lower pinned = { parsed with netloc } ∧
      (urlParts lib.lower pinned).hostname lib.lower = some target.ip ∧
      (urlParts lib.lower pinned).hostinfo.2 =
        if (portPart target.port).drop 1 = [] then none
        else some ((portPart target.port).drop 1) := by
  have safe : ∀ c ∈ userPart parsed ++ bracketed target.ip ++
      portPart target.port, isDelimiter c = false ∧ isUnsafe c = false := by
    intro c member
    rcases List.mem_append.mp member with early | inPort
    · rcases List.mem_append.mp early with inUser | inHost
      · rcases mem_userPart inUser with inNetloc | rfl | rfl
        · exact web.netloc c inNetloc
        · decide
        · decide
      · unfold bracketed at inHost
        split at inHost
        · simp only [List.cons_append, List.mem_cons, List.mem_append,
            List.not_mem_nil, or_false] at inHost
          rcases inHost with rfl | inHost | rfl
          · decide
          · exact text.safe c inHost
          · decide
        · exact text.safe c inHost
    · have digits : ∀ c, isDelimiter c = true ∨ isUnsafe c = true →
          c ≠ ':' ∧ c.isDigit = false := by
        intro c apart
        simp only [isDelimiter, isUnsafe, Bool.or_eq_true,
          decide_eq_true_eq] at apart
        rcases apart with ((rfl | rfl) | rfl) | ((rfl | rfl) | rfl) <;> decide
      have fresh : isDelimiter c = true ∨ isUnsafe c = true → False := by
        intro apart
        obtain ⟨notColon, noDigit⟩ := digits c apart
        rcases portPart_cases target.port with isNil | ⟨number, isText⟩
        · rw [isNil] at inPort
          cases inPort
        · rw [isText] at inPort
          exact fresh_portText notColon noDigit inPort
      constructor
      · exact Bool.eq_false_iff.mpr fun delimits => fresh (Or.inl delimits)
      · exact Bool.eq_false_iff.mpr fun isOut => fresh (Or.inr isOut)
  have served : userPart parsed ++ bracketed target.ip ++
      portPart target.port ≠ [] := by
    intro isNil
    simp only [List.append_eq_nil_iff] at isNil
    have noHost := isNil.1.2
    unfold bracketed at noHost
    split at noHost
    · cases noHost
    · exact text.nonempty noHost
  have again := @urlParts_geturl _ lib (web.withNetloc served safe)
  have host : ({ parsed with
      netloc := userPart parsed ++ bracketed target.ip ++
        portPart target.port } : ParseResult).hostinfo = (target.ip,
          if (portPart target.port).drop 1 = [] then none
          else some ((portPart target.port).drop 1)) :=
    splitHost_served text (userPart_ends parsed) (portPart_cases target.port)
      rfl
  refine ⟨_, _, _, by rw [pinUrl, isParsed]; rfl, again, ?_, ?_⟩
  · rw [again]
    exact hostname_served text host
  · rw [again, host]

end Pinned

/-! ## The check -/

section Check

variable {lib : Library} {getaddrinfo : Text → Answer} {url : Text}
variable {parsed : ParseResult} {ip : IpAddress}

theorem ipBlocked_v4 {value : BitVec 32} : ipBlocked false (.v4 value) = false ↔
    ∀ net ∈ blockedV4Nets, net.contains (.v4 value) = false := by
  simp [ipBlocked]

theorem ipBlocked_v6 {value : BitVec 128} {scope : Option Text} :
    ipBlocked false (.v6 value scope) = false ↔
      ∀ net ∈ blockedV6Nets, net.contains (.v6 value scope) = false := by
  simp [ipBlocked]

theorem v6Nets_contains_v4 {value : BitVec 32} :
    ∀ net ∈ blockedV6Nets, net.contains (.v4 value) = false := by
  simp [blockedV6Nets, IpNetwork.contains]

theorem v4Nets_contains_v6 {value : BitVec 128} {scope : Option Text} :
    ∀ net ∈ blockedV4Nets, net.contains (.v6 value scope) = false := by
  simp [blockedV4Nets, IpNetwork.contains]

/-- An address that passes the check is outside, unless it is another address
in disguise. -/
theorem outside_of_admitted (admitted : ipBlocked false ip = false)
    (noneMapped : ∀ value scope mapped, ip = .v6 value scope →
      ipv4Mapped value = some mapped →
      ∀ net ∈ blockedV4Nets, net.contains (.v4 mapped) = false) :
    Outside ip := by
  intro net member
  cases ip with
  | v4 value =>
      rcases List.mem_append.mp member with isV4 | isV6
      · exact ipBlocked_v4.mp admitted net isV4
      · exact v6Nets_contains_v4 net isV6
  | v6 value scope =>
      cases isMapped : ipv4Mapped value with
      | none =>
          have isOwn : (IpAddress.v6 value scope).unmapped =
              .v6 value scope := by
            simp only [IpAddress.unmapped, isMapped]
          rw [isOwn]
          rcases List.mem_append.mp member with isV4 | isV6
          · exact v4Nets_contains_v6 net isV4
          · exact ipBlocked_v6.mp admitted net isV6
      | some mapped =>
          have isOther : (IpAddress.v6 value scope).unmapped = .v4 mapped := by
            simp only [IpAddress.unmapped, isMapped]
          rw [isOther]
          rcases List.mem_append.mp member with isV4 | isV6
          · exact noneMapped value scope mapped rfl isMapped net isV4
          · exact v6Nets_contains_v4 net isV6

theorem noneMapped_of_outside
    (outside : ∀ ip ∈ destinations lib getaddrinfo parsed, Outside ip) :
    NoneMapped lib getaddrinfo parsed := by
  intro ip isDestination value scope mapped isV6 isMapped net isV4
  have apart := outside ip isDestination net (List.mem_append_left _ isV4)
  rw [isV6, IpAddress.unmapped, isMapped] at apart
  exact apart

/-- The port of the pinned URL is the port of the URL, unless that is zero. -/
theorem port_pinned {again : ParseResult} {port : Option Nat}
    (isPort : parsed.port = some port)
    (written : again.hostinfo.2 = if (portPart port).drop 1 = [] then none
      else some ((portPart port).drop 1)) :
    again.port = parsed.port ↔ parsed.port ≠ some (some 0) := by
  have unwritten : (portPart port).drop 1 = [] → again.port = some none := by
    intro isNil
    rw [if_pos isNil] at written
    unfold ParseResult.port
    rw [written]
  cases port with
  | none => simp [unwritten rfl, isPort]
  | some port =>
      by_cases zero : port = 0
      · subst zero
        simp [unwritten rfl, isPort]
      · have digits : (portPart (some port)).drop 1 = Nat.toDigits 10 port := by
          simp [portPart, zero, portText]
        rw [digits, if_neg Nat.toDigits_ne_nil] at written
        have kept := port_served (port_le parsed isPort) written
        simp [kept, isPort, zero]

end Check

/-- A target that is returned is outside the blocked networks and pinned to the
validated address just when no destination is a blocked IPv4 address written as
an IPv6 address and the port is not zero, unless the URL is refused. -/
theorem resolve_sound_iff (lib : Library) (getaddrinfo : Text → Answer)
    (plain : ∀ host infos, getaddrinfo host = .addresses infos →
      ∀ info ∈ infos, SafeText info) (url : Text) :
    (∀ target, resolveWebhookUrl lib getaddrinfo false url = .ok target →
      ∃ parsed, Sound lib getaddrinfo url target parsed) ↔
    ∀ parsed, urlparse lib url = some parsed →
      Passes lib getaddrinfo parsed →
      NoneMapped lib getaddrinfo parsed ∧ parsed.port ≠ some (some 0) := by
  have written : ∀ {parsed : ParseResult} {port : Option Nat} {ip : IpAddress},
      urlparse lib url = some parsed → Passes lib getaddrinfo parsed →
      (destinations lib getaddrinfo parsed).head? = some ip →
      ∃ pinned header netloc, pinUrl lib url
          ⟨parsed.scheme, hostOf lib parsed, port, ip.text⟩ =
            some (pinned, header) ∧
        urlParts lib.lower pinned = { parsed with netloc } ∧
        (urlParts lib.lower pinned).hostname lib.lower = some ip.text ∧
        (urlParts lib.lower pinned).hostinfo.2 =
          if (portPart port).drop 1 = [] then none
          else some ((portPart port).drop 1) := by
    intro parsed port ip isParsed passes first
    have web := webUrl_of_passes isParsed passes
    exact pinUrl_parts isParsed web
      (hostText_destination web plain (List.mem_of_head? first))
  constructor
  · intro sound parsed isParsed passes
    cases isPort : parsed.port with
    | none => exact (passes.port isPort).elim
    | some port =>
        cases first : (destinations lib getaddrinfo parsed).head? with
        | none =>
            exact (passes.answered (List.head?_eq_none_iff.mp first)).elim
        | some ip =>
            obtain ⟨again, checked⟩ := sound _ (resolveWebhookUrl_ok.mpr
              ⟨parsed, isParsed, passes, port, ip, isPort, first, rfl⟩)
            cases isParsed.symm.trans checked.isParsed
            refine ⟨noneMapped_of_outside checked.outside, ?_⟩
            rw [← isPort]
            obtain ⟨pinned, header, isPinned, _, _, _, same⟩ := checked.pinned
            obtain ⟨other, _, _, isOther, _, _, isWritten⟩ :=
              @written parsed port ip isParsed passes first
            cases isPinned.symm.trans isOther
            exact (port_pinned isPort isWritten).mp same
  · intro condition target returned
    obtain ⟨parsed, isParsed, passes, port, ip, isPort, first, rfl⟩ :=
      resolveWebhookUrl_ok.mp returned
    obtain ⟨noneMapped, notZero⟩ := condition parsed isParsed passes
    obtain ⟨pinned, header, netloc, isPinned, parts, host, isWritten⟩ :=
      @written parsed port ip isParsed passes first
    refine ⟨parsed, isParsed, ⟨rfl, passes.scheme⟩, ?_,
      ⟨ip, List.mem_of_head? first, rfl⟩, pinned, header, isPinned, netloc,
      parts, host, (port_pinned isPort isWritten).mpr notZero⟩
    exact fun other member => outside_of_admitted
      (passes.admitted other member) (noneMapped other member)

/-! ## Two URLs -/

theorem toLower_cases (c : Char) : c.toLower = c ∨
    (65 ≤ c.toNat ∧ c.toNat ≤ 90 ∧ c.toLower.toNat = c.toNat + 32) := by
  unfold Char.toLower
  split
  · rename_i isUpper
    have lower := UInt32.le_iff_toNat_le.mp isUpper.1
    have upper := UInt32.le_iff_toNat_le.mp isUpper.2
    refine Or.inr ⟨lower, upper, ?_⟩
    change (c.val + ('a'.val - 'A'.val)).toNat = _
    rw [UInt32.toNat_add]
    change (c.toNat + 32) % 2 ^ 32 = c.toNat + 32
    change c.toNat ≤ 90 at upper
    omega
  · exact Or.inl rfl

/-- Lower case of the letters of ASCII, and text that is in normal form. -/
def asciiLibrary : Library where
  lower text := text.map Char.toLower
  plain := by
    intro text plain
    have same : ∀ c ∈ text, c.toLower = c := by
      intro c member
      rcases toLower_cases c with isSame | ⟨lower, upper, _⟩
      · exact isSame
      · have letters : ∀ code < 91, 65 ≤ code →
            isAddressChar (Char.ofNat code) = false := by
          decide
        have isOther := letters c.toNat (by omega) lower
        rw [Char.ofNat_toNat, plain c member] at isOther
        cases isOther
    exact (List.map_congr_left same).trans (List.map_id' text)
  http := by decide
  https := by decide
  special := by
    intro text c member special
    obtain ⟨before, listed, rfl⟩ := List.mem_map.mp member
    rcases toLower_cases before with isSame | ⟨lower, upper, isLower⟩
    · rw [isSame]
      exact listed
    · have letters : ∀ code < 123, 97 ≤ code →
          isSpecial (Char.ofNat code) = false := by
        decide
      have isOther := letters before.toLower.toNat (by omega) (by omega)
      rw [Char.ofNat_toNat, special] at isOther
      cases isOther
  normalize := id

/-- The name resolves to one public address. -/
def oneAddress (_ : Text) : Answer := .addresses ["93.184.216.34".toList]

def hookUrl : Text := "https://hook.example:8443/a?b=1".toList

def hookParts : ParseResult where
  scheme := "https".toList
  netloc := "hook.example:8443".toList
  path := "/a".toList
  params := []
  query := "b=1".toList
  fragment := []

theorem safeText_oneAddress (host : Text) (infos : List Text)
    (answer : oneAddress host = .addresses infos) :
    ∀ info ∈ infos, SafeText info := by
  intro info listed
  cases answer
  rw [List.mem_singleton] at listed
  rw [listed]
  have safe : "93.184.216.34".toList.all (fun c => !isDelimiter c &&
      !isUnsafe c && c != '@' && c != ']') = true := by
    decide
  intro c member
  have isSafe := List.all_eq_true.mp safe c member
  simp only [Bool.and_eq_true, Bool.not_eq_true', bne_iff_ne] at isSafe
  exact ⟨isSafe.1.1.1, isSafe.1.1.2, isSafe.1.2, isSafe.2⟩

theorem resolve_sound_iff_hookUrl : ∃ target parsed,
    resolveWebhookUrl asciiLibrary oneAddress false hookUrl = .ok target ∧
      Sound asciiLibrary oneAddress hookUrl target parsed := by
  have sound := (resolve_sound_iff asciiLibrary oneAddress safeText_oneAddress
    hookUrl).mpr (by
      intro parsed isParsed _
      have isHook : urlparse asciiLibrary hookUrl = some hookParts := by
        decide +kernel
      cases isHook.symm.trans isParsed
      have isOne : destinations asciiLibrary oneAddress hookParts =
          [.v4 (ofOctets 93 184 216 34)] := by
        decide +kernel
      refine ⟨?_, by decide +kernel⟩
      intro ip isDestination value scope mapped isV6
      rw [isOne, List.mem_singleton] at isDestination
      rw [isDestination] at isV6
      cases isV6)
  have returned : resolveWebhookUrl asciiLibrary oneAddress false hookUrl =
      .ok ⟨"https".toList, "hook.example".toList, some 8443,
        "93.184.216.34".toList⟩ := by
    decide +kernel
  obtain ⟨parsed, checked⟩ := sound _ returned
  exact ⟨_, parsed, returned, checked⟩

def mappedUrl : Text := "http://[::ffff:127.0.0.1]/".toList

/-- A loopback address that is written as an IPv6 address is accepted. -/
theorem resolve_accepts_mapped : ¬∀ target,
    resolveWebhookUrl asciiLibrary oneAddress false mappedUrl = .ok target →
    ∃ parsed, Sound asciiLibrary oneAddress mappedUrl target parsed := by
  intro sound
  have returned : resolveWebhookUrl asciiLibrary oneAddress false mappedUrl =
      .ok ⟨"http".toList, "::ffff:127.0.0.1".toList, none,
        "::ffff:127.0.0.1".toList⟩ := by
    decide +kernel
  obtain ⟨parsed, checked⟩ := sound _ returned
  have isOne : (urlparse asciiLibrary mappedUrl).map
      (destinations asciiLibrary oneAddress) =
        some [.v6 0xffff7f000001 none] := by
    decide +kernel
  rw [checked.isParsed, Option.map_some, Option.some.injEq] at isOne
  have outside := checked.outside (.v6 0xffff7f000001 none) (by
    rw [isOne]
    exact List.mem_singleton_self _)
  have inside : ∃ net ∈ blockedV4Nets ++ blockedV6Nets,
      net.contains (IpAddress.v6 0xffff7f000001 none).unmapped = true := by
    decide +kernel
  obtain ⟨net, member, contains⟩ := inside
  rw [outside net member] at contains
  cases contains

end Sqlery.Webhooks
