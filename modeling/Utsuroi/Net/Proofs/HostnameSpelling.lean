import Utsuroi.Executors.Fetcher
import Utsuroi.Net.Proofs.IPv6Spelling

/-!
# The spellings of a host name

A DNS name is the same host in either case and with the root dot behind it.  The names that are
blocked are compared without the dot, so that the static check lets them through with it.
-/

namespace Utsuroi

open Positional Separated

/-- A host that is no IP literal, without the root dot. -/
structure DnsName (host : String) : Prop where
  ne_nil : host.toList ≠ []
  chars : ∀ c ∈ host.toList, c ≠ ':' ∧ c ≠ '['
  rootless : host.toList.getLast? ≠ some '.'
  address : parseIPv4 host.toLower.toList = none

/-- The other spellings of a host. -/
inductive SameHost (host : String) : String → Prop
  | letterCase {other : String} : other.toLower = host.toLower → SameHost host other
  | rootDot : DnsName host → SameHost host (host ++ ".")

/-- The name is blocked as it stands. -/
def BlockedName (name : String) : Prop :=
  name = "localhost" ∨ ".localhost".toList <:+ name.toList ∨ name ∈ KNOWN_BLOCKED_HOSTNAMES

/-- Nothing before the host name denies the URL. -/
structure Examined (parts : UrlParts) : Prop where
  scheme : parts.isHttp = true
  username : parts.username = ""
  password : parts.password = ""
  port : parts.port.getD (defaultPortFor parts.protocol) ∈ ALLOWED_PORTS

/-! ## Names -/

section Names

variable {host name : String} {text : List Char}

private theorem toLower_append (text : String) : (text ++ ".").toLower = text.toLower ++ "." := by
  apply String.toList_inj.mp
  rw [toList_toLower, String.toList_append, List.map_append, String.toList_append, toList_toLower]
  rfl

/-- With an empty part at the end a text is no IPv4 address. -/
theorem parseIPv4_dot : parseIPv4 (text ++ ['.']) = none := by
  have hparts : (text ++ ['.']).splitOn '.' = text.splitOn '.' ++ [[]] :=
    List.splitOn_append_cons_self text []
  have hlast : (text.splitOn '.' ++ [[]]).mapM parseIPv4Part = none :=
    mapM_eq_none (List.mem_append_right _ (List.mem_singleton_self ([] : List Char))) rfl
  rw [parseIPv4]
  simp only [hparts, hlast, Option.bind_none, ite_self]

private theorem eq_of_toLower {c d : Char} (hd : ¬(0x61 ≤ d.toNat ∧ d.toNat ≤ 0x7a))
    (h : c.toLower = d) : c = d := by
  have hlower := toNat_toLower c
  rw [h] at hlower
  apply Char.toNat_inj.mp
  split at hlower
  next hupper => omega
  next => exact hlower.symm

private theorem mem_of_lower {c : Char} (hc : ¬(0x61 ≤ c.toNat ∧ c.toNat ≤ 0x7a))
    (h : c ∈ text.map Char.toLower) : c ∈ text := by
  obtain ⟨d, hd, hlower⟩ := List.mem_map.mp h
  exact eq_of_toLower hc hlower ▸ hd

theorem DnsName.lower_ne_nil (h : DnsName host) : host.toLower.toList ≠ [] := by
  rw [toList_toLower]
  simpa using h.ne_nil

theorem DnsName.not_mem {c : Char} (h : DnsName host) (hc : c = ':' ∨ c = '[') :
    c ∉ host.toLower.toList := by
  intro hmem
  rw [toList_toLower] at hmem
  rcases hc with rfl | rfl
  · exact (h.chars _ (mem_of_lower (by decide) hmem)).1 rfl
  · exact (h.chars _ (mem_of_lower (by decide) hmem)).2 rfl

private theorem DnsName.head_ne (h : DnsName host) (rest : List Char) :
    (host.toLower.toList ++ rest).head? ≠ some '[' := by
  obtain ⟨c, tail, hcons⟩ := List.exists_cons_of_ne_nil h.lower_ne_nil
  intro hhead
  rw [hcons, List.cons_append, List.head?_cons] at hhead
  apply h.not_mem (.inr rfl)
  rw [hcons, ← Option.some.inj hhead]
  exact List.mem_cons_self

/-- What is no address is classified by its name. -/
theorem classifyHostname_name (hnil : host.toLower.toList ≠ []) (hcolon : ':' ∉ host.toLower.toList)
    (hhead : host.toLower.toList.head? ≠ some '[') (haddress : parseIPv4 host.toLower.toList = none) :
    classifyHostname host = classifyName host.toLower := by
  rw [classifyHostname]
  simp only [hhead, false_and, if_false, haddress, parseIPv6_name hnil hcolon hhead]

theorem DnsName.classify (h : DnsName host) : classifyHostname host = classifyName host.toLower :=
  classifyHostname_name h.lower_ne_nil (h.not_mem (.inl rfl)) (by simpa using h.head_ne []) h.address

/-- No blocked name ends in a dot. -/
theorem classifyName_dot (name : String) : classifyName (name ++ ".") = .pass := by
  have hlast : (name ++ ".").toList.getLast? = some '.' := by
    rw [String.toList_append]
    exact List.getLast?_concat
  have hne : ∀ other : String, other.toList.getLast? ≠ some '.' → name ++ "." ≠ other := by
    intro other hother heq
    rw [heq] at hlast
    exact hother hlast
  have hsuffix : ".localhost".toList.isSuffixOf (name ++ ".").toList = false := by
    rw [Bool.eq_false_iff]
    intro hsuffix
    obtain ⟨before, hbefore⟩ := List.isSuffixOf_iff_suffix.mp hsuffix
    rw [← hbefore, List.getLast?_append_of_ne_nil _ (by decide)] at hlast
    exact absurd hlast (by decide)
  have hknown : KNOWN_BLOCKED_HOSTNAMES.contains (name ++ ".") = false := by
    simp only [KNOWN_BLOCKED_HOSTNAMES, List.contains_cons, List.contains_nil, Bool.or_false,
      Bool.or_eq_false_iff, beq_eq_false_iff_ne]
    exact ⟨hne _ (by decide), hne _ (by decide), hne _ (by decide), hne _ (by decide)⟩
  simp only [classifyName, hne "localhost" (by decide), hsuffix, hknown, Bool.false_eq_true, false_or,
    if_false]

theorem DnsName.classify_dot (h : DnsName host) : classifyHostname (host ++ ".") = .pass := by
  have htext : (host ++ ".").toLower.toList = host.toLower.toList ++ ['.'] := by
    rw [toLower_append, String.toList_append]
    rfl
  have hnil : (host ++ ".").toLower.toList ≠ [] := by
    rw [htext]
    simp
  have hcolon : ':' ∉ (host ++ ".").toLower.toList := by
    rw [htext]
    simp [h.not_mem (.inl rfl)]
  have hhead : (host ++ ".").toLower.toList.head? ≠ some '[' := by
    rw [htext]
    exact h.head_ne ['.']
  have haddress : parseIPv4 (host ++ ".").toLower.toList = none := by
    rw [htext]
    exact parseIPv4_dot
  rw [classifyHostname_name hnil hcolon hhead haddress, toLower_append]
  exact classifyName_dot host.toLower

theorem classifyName_blocked_iff : (classifyName name).blocked = true ↔ BlockedName name := by
  unfold classifyName BlockedName
  rw [← List.isSuffixOf_iff_suffix, ← or_assoc]
  split
  next hlocal => exact ⟨fun _ => .inl hlocal, fun _ => rfl⟩
  next hother =>
    split
    next hknown => exact ⟨fun _ => .inr (List.contains_iff_mem.mp hknown), fun _ => rfl⟩
    next hunknown =>
      constructor
      · intro h
        contradiction
      · intro h
        rcases h with hlocal | hknown
        · exact absurd hlocal hother
        · exact absurd (List.contains_iff_mem.mpr hknown) hunknown

theorem isBlockedHostname_sameHost {other : String} (h : SameHost host other) :
    isBlockedHostname other = isBlockedHostname host := by
  cases h with
  | letterCase hcase => simp only [isBlockedHostname, hcase]
  | rootDot hname =>
      have hdot : dropFinalDot (host ++ ".").toLower.toList = dropFinalDot host.toLower.toList := by
        have hlast : host.toLower.toList.getLast? ≠ some '.' := by
          rw [toList_toLower, List.getLast?_map]
          intro hdot
          obtain ⟨c, hc, hlower⟩ := Option.map_eq_some_iff.mp hdot
          exact hname.rootless (eq_of_toLower (by decide) hlower ▸ hc)
        have hdotted : (host.toLower.toList ++ ['.']).getLast? = some '.' := List.getLast?_concat
        have htext : (host ++ ".").toLower.toList = host.toLower.toList ++ ['.'] := by
          rw [toLower_append, String.toList_append]
          rfl
        rw [htext, dropFinalDot, if_pos hdotted, List.dropLast_concat, dropFinalDot, if_neg hlast]
      simp only [isBlockedHostname, hdot]

end Names

/-! ## Verdicts -/

section Verdict

variable {net : NetTools} {url other : Url} {parts : UrlParts} {host : String}

private theorem toLower_eq_empty (h : host.toLower = "".toLower) : host = "" := by
  have hlist := congrArg String.toList h
  rw [toList_toLower, toList_toLower] at hlist
  apply String.toList_inj.mp
  simpa using hlist

/-- The verdict on a URL that is examined up to its host name. -/
theorem checkUrlForSsrf_examined (hparse : net.parse url = some parts) (hexamined : Examined parts)
    (hhost : parts.hostname ≠ "") :
    checkUrlForSsrf net.classifying url = (hostnameReason parts.hostname).elim allow deny := by
  have hport : ALLOWED_PORTS.contains (parts.port.getD (defaultPortFor parts.protocol)) = true :=
    List.contains_iff_mem.mpr hexamined.port
  unfold checkUrlForSsrf
  simp only [NetTools.classifying, hparse, hexamined.scheme, hexamined.username, hexamined.password,
    hport, bne_self_eq_false, Bool.not_true, Bool.or_self, Bool.false_eq_true, if_false,
    beq_eq_false_iff_ne.mpr hhost]
  cases hostnameReason parts.hostname with
  | none => rfl
  | some reason => rfl

/-- Where it is denied before, the host name is not looked at. -/
theorem checkUrlForSsrf_unexamined (hparse : net.parse url = some parts)
    (hother : net.parse other = some { parts with hostname := host }) (h : ¬Examined parts) :
    checkUrlForSsrf net.classifying other = checkUrlForSsrf net.classifying url := by
  have hscheme : ({ parts with hostname := host } : UrlParts).isHttp = parts.isHttp := rfl
  unfold checkUrlForSsrf
  simp only [NetTools.classifying, hparse, hother, hscheme]
  by_cases hhttp : parts.isHttp = true
  · by_cases huser : (parts.username != "" || parts.password != "") = true
    · simp only [hhttp, huser, Bool.not_true, Bool.false_eq_true, if_false, if_true]
    · by_cases hport : ALLOWED_PORTS.contains
          (parts.port.getD (defaultPortFor parts.protocol)) = true
      · simp only [Bool.or_eq_true, bne_iff_ne, not_or, Decidable.not_not] at huser
        exact absurd ⟨hhttp, huser.1, huser.2, List.contains_iff_mem.mp hport⟩ h
      · simp only [hhttp, huser, hport, Bool.not_true, Bool.not_false, Bool.false_eq_true, if_false,
          if_true]
  · simp only [hhttp, Bool.not_false, if_true]

private theorem hostnameReason_pass (h : classifyHostname host = .pass) : hostnameReason host = none := by
  rw [hostnameReason, h]
  rfl

private theorem hostnameReason_name {name : String} (h : classifyHostname host = classifyName name) :
    hostnameReason host = none ↔ ¬BlockedName name := by
  rw [← classifyName_blocked_iff, hostnameReason, h]
  cases (classifyName name).blocked with
  | false => simp
  | true => simp

/-- Another spelling of the host gets the same verdict, unless it adds the root dot to a name that is
blocked; the executors' list of names knows the dot. -/
theorem checkUrlForSsrf_sameHost_iff (hparse : net.parse url = some parts)
    (hother : net.parse other = some { parts with hostname := host })
    (h : SameHost parts.hostname host) :
    isBlockedHostname host = isBlockedHostname parts.hostname ∧
    (checkUrlForSsrf net.classifying other = checkUrlForSsrf net.classifying url ↔
      host.toLower = parts.hostname.toLower ∨ ¬Examined parts ∨
        ¬BlockedName parts.hostname.toLower) := by
  refine ⟨isBlockedHostname_sameHost h, ?_⟩
  by_cases hexamined : Examined parts
  · have hexaminedOther : Examined { parts with hostname := host } :=
      ⟨hexamined.scheme, hexamined.username, hexamined.password, hexamined.port⟩
    cases h with
    | letterCase hcase =>
        refine iff_of_true ?_ (.inl hcase)
        by_cases hempty : parts.hostname = ""
        · rw [hempty] at hcase
          have hhost : host = parts.hostname := by
            rw [hempty]
            exact toLower_eq_empty hcase
          unfold checkUrlForSsrf
          simp only [NetTools.classifying, hparse, hother, hhost]
        · have hhost : host ≠ "" := by
            intro hnil
            rw [hnil] at hcase
            exact hempty (toLower_eq_empty hcase.symm)
          have hclassify : classifyHostname host = classifyHostname parts.hostname := by
            rw [classifyHostname, hcase, ← classifyHostname]
          have hsame : hostnameReason host = hostnameReason parts.hostname := by
            rw [hostnameReason, hclassify, ← hostnameReason]
          rw [checkUrlForSsrf_examined hparse hexamined hempty,
            checkUrlForSsrf_examined hother hexaminedOther hhost, hsame]
    | rootDot hname =>
        have hempty : parts.hostname ≠ "" := by
          intro hnil
          exact hname.ne_nil (by rw [hnil]; rfl)
        have hhost : parts.hostname ++ "." ≠ "" := by
          intro hnil
          have hlist := congrArg String.toList hnil
          rw [String.toList_append] at hlist
          simp at hlist
        have hcase : (parts.hostname ++ ".").toLower ≠ parts.hostname.toLower := by
          intro heq
          have hlength := congrArg (List.length ∘ String.toList) heq
          rw [toLower_append] at hlength
          simp at hlength
        rw [checkUrlForSsrf_examined hparse hexamined hempty,
          checkUrlForSsrf_examined hother hexaminedOther hhost, hostnameReason_pass hname.classify_dot]
        have hreason := hostnameReason_name hname.classify
        cases hverdict : hostnameReason parts.hostname with
        | none =>
            rw [hverdict] at hreason
            exact iff_of_true rfl (.inr (.inr (hreason.mp rfl)))
        | some reason =>
            rw [hverdict] at hreason
            refine iff_of_false (by simp [allow, deny]) ?_
            intro hcondition
            rcases hcondition with heq | hunexamined | hunblocked
            · exact hcase heq
            · exact hunexamined hexamined
            · exact absurd (hreason.mpr hunblocked) (by simp)
  · exact iff_of_true (checkUrlForSsrf_unexamined hparse hother hexamined) (.inr (.inl hexamined))

end Verdict

/-! ## The root dot behind `localhost` -/

private def localParts : UrlParts := ⟨"http:", "", "", "localhost", none⟩

private def rootParts : UrlParts := ⟨"http:", "", "", "localhost.", none⟩

private def localParse (url : Url) : Option UrlParts :=
  if ["http://localhost", "http://localhost/", "http://localhost/robots.txt"].contains url then
    some localParts
  else if ["http://localhost.", "http://localhost./", "http://localhost./robots.txt"].contains url then
    some rootParts
  else none

private theorem localParse_cases {url : Url} {parts : UrlParts} (h : localParse url = some parts) :
    parts = localParts ∨ parts = rootParts := by
  unfold localParse at h
  split at h
  · exact .inl (Option.some.inj h).symm
  split at h
  · exact .inr (Option.some.inj h).symm
  · contradiction

private def localNet : NetTools where
  parse := localParse
  join := fun reference base => some (base ++ reference)
  classifyHostname := fun _ => none
  parse_origin := by
    intro url parts hparse _
    rcases localParse_cases hparse with rfl | rfl
    · decide +kernel
    · decide +kernel
  join_robots := by
    intro url parts hparse _
    rcases localParse_cases hparse with rfl | rfl
    · exact ⟨"http://localhost/robots.txt", by decide +kernel, by decide +kernel⟩
    · exact ⟨"http://localhost./robots.txt", by decide +kernel, by decide +kernel⟩

private theorem localhost_name : DnsName "localhost" where
  ne_nil := by decide
  chars := by
    have hall : "localhost".toList.all (fun c => c != ':' && c != '[') = true := by decide
    intro c hc
    have hboth := List.all_eq_true.mp hall c hc
    rwa [Bool.and_eq_true, bne_iff_ne, bne_iff_ne] at hboth
  rootless := by decide
  address := by decide +kernel

private theorem localParse_plain : localNet.parse "http://localhost/" = some localParts := by
  decide +kernel

private theorem localParse_root :
    localNet.parse "http://localhost./" = some { localParts with hostname := "localhost" ++ "." } := by
  decide +kernel

/-- Two spellings of one host, of which the second passes. -/
theorem localhost_rootDot :
    localNet.parse "http://localhost/" = some localParts ∧
      localNet.parse "http://localhost./" = some { localParts with hostname := "localhost" ++ "." } ∧
      SameHost "localhost" ("localhost" ++ ".") ∧
      checkUrlForSsrf localNet.classifying "http://localhost/" = deny "loopback" ∧
      checkUrlForSsrf localNet.classifying "http://localhost./" = allow :=
  ⟨localParse_plain, localParse_root, .rootDot localhost_name, by decide +kernel, by decide +kernel⟩

/-- `http://localhost/` and its spelling with the root dot. -/
theorem checkUrlForSsrf_sameHost_localhost :
    isBlockedHostname ("localhost" ++ ".") = isBlockedHostname localParts.hostname ∧
    (checkUrlForSsrf localNet.classifying "http://localhost./" =
        checkUrlForSsrf localNet.classifying "http://localhost/" ↔
      ("localhost" ++ ".").toLower = localParts.hostname.toLower ∨ ¬Examined localParts ∨
        ¬BlockedName localParts.hostname.toLower) :=
  checkUrlForSsrf_sameHost_iff localParse_plain localParse_root (.rootDot localhost_name)

end Utsuroi
