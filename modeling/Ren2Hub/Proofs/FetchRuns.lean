import Ren2Hub.Service.ProtectedFetch

namespace Ren2Hub.Proofs.FetchRuns
open Lib Service SSRFProtection List

variable {p : SSRFProtection} {s : FetchSetting} {t : Texts} {host addr : String} {port : Int}

theorem isPrivateIP_to16 (x : IP) : isPrivateIP (.v6 x.to16) = isPrivateIP x := by
  simp only [isPrivateIP, IP.isUnspecified_to16, IP.isLoopback_to16, IP.isLinkLocalUnicast_to16,
    IP.isLinkLocalMulticast_to16, IP.isInterfaceLocalMulticast_to16, IP.isPrivate_to16,
    IP.to4_to16, IPNet.contains_to16]

theorem isIPAccessAllowed_to16 (p : SSRFProtection) (x : IP) :
    p.isIPAccessAllowed (.v6 x.to16) = p.isIPAccessAllowed x := by
  simp only [isIPAccessAllowed, isPrivateIP_to16, isIpInCIDRList, IP.equal_to16,
    IPNet.contains_to16]

theorem isIPAccessAllowed_congr (h : x.equal y) :
    p.isIPAccessAllowed x = p.isIPAccessAllowed y := by
  have heq : x.to16 = y.to16 := of_decide_eq_true h
  rw [← isIPAccessAllowed_to16, heq, isIPAccessAllowed_to16]

theorem not_private_of_allowed (h : p.isIPAccessAllowed x) (hprivate : p.allowPrivateIp = false) :
    isPrivateIP x = false := by
  by_contra hx
  simp [isIPAccessAllowed, hprivate, hx] at h

theorem validateNetworkTarget_ok (h : p.validateNetworkTarget host port = .ok ()) :
    p.isAllowedPort port ∧
      (∀ ip, parseIP (trimSpace host) = some ip → p.isIPAccessAllowed ip) ∧
      (parseIP (trimSpace host) = none → p.isDomainAllowed (trimSpace host)) := by
  unfold validateNetworkTarget at h
  simp only at h
  split at h
  · cases h
  split at h
  · cases h
  split at h
  · cases h
  rename_i hport
  refine ⟨by simpa using hport, ?_, ?_⟩
  · intro ip hip
    rw [hip] at h
    by_contra hno
    simp [hno] at h
  · intro hip
    rw [hip] at h
    by_contra hno
    simp only [hno, ↓reduceIte] at h
    split at h <;> cases h

theorem validateResolvedIP_ok (h : p.validateResolvedIP host ip = .ok ()) :
    p.isIPAccessAllowed ip := by
  unfold validateResolvedIP at h
  split at h
  · assumption
  · cases h

theorem candidateIPs_ok (h : p.candidateIPs network host resolved = .ok ips) :
    ∀ ip ∈ ips, p.isIPAccessAllowed ip := by
  induction resolved generalizing ips with
  | nil =>
    cases h
    simp
  | cons entry resolved ih =>
    cases entry with
    | none => exact ih h
    | some ip =>
      simp only [candidateIPs] at h
      split at h
      · exact ih h
      cases hip : p.validateResolvedIP host ip with
      | error e => simp [hip, bind, Except.bind] at h
      | ok _ =>
        cases hrest : p.candidateIPs network host resolved with
        | error e => simp [hip, hrest, bind, Except.bind] at h
        | ok rest =>
          simp only [hip, hrest, bind, Except.bind, pure, Except.pure, Except.ok.injEq] at h
          subst h
          intro x hx
          rcases mem_cons.mp hx with rfl | hx
          · exact validateResolvedIP_ok hip
          · exact ih hrest x hx

theorem tried_subset (connects : Target → Bool) (targets : List Target) :
    ∀ x ∈ tried connects targets, x ∈ targets := by
  induction targets with
  | nil => simp [tried]
  | cons target rest ih =>
    intro x hx
    rw [tried] at hx
    split at hx
    · exact mem_cons.mpr (.inl (mem_singleton.mp hx))
    rcases mem_cons.mp hx with rfl | hx
    · exact mem_cons_self
    · exact mem_cons_of_mem _ (ih x hx)

/-- An address that is allowed, a name left to the network, or an allowed address of an allowed
name. -/
inductive Tries (p : SSRFProtection) (addr portText : String) (host : String) : Target → Prop where
  | given : parseIP host = some ip → p.isIPAccessAllowed ip →
      Tries p addr portText host (.literal ip portText)
  | name : parseIP host = none → p.applyIPFilterForDomain = false →
      Tries p addr portText host (.unresolved addr)
  | resolved : parseIP host = none → p.isIPAccessAllowed ip →
      Tries p addr portText host (.literal ip portText)

theorem Tries.literal (h : Tries p addr portText host target)
    (hfilter : p.applyIPFilterForDomain = true) :
    ∃ ip, target = .literal ip portText ∧ p.isIPAccessAllowed ip := by
  cases h with
  | given _ hip => exact ⟨_, rfl, hip⟩
  | name _ hoff => simp [hfilter] at hoff
  | resolved _ hip => exact ⟨_, rfl, hip⟩

theorem protectedDial_tries (h : a ∈ (protectedDial p addr d).1) :
    ∃ portText port, splitHostPort addr = some (a.host, portText) ∧ atoi portText = some port ∧
      p.validateNetworkTarget a.host port = .ok () ∧ Tries p addr portText a.host a.target := by
  unfold protectedDial at h
  cases hsplit : splitHostPort addr with
  | none => simp [hsplit] at h
  | some parts =>
    obtain ⟨host, portText⟩ := parts
    cases hport : atoi portText with
    | none => simp [hsplit, hport] at h
    | some port =>
      cases hvalid : p.validateNetworkTarget host port with
      | error e => simp [hsplit, hport, hvalid] at h
      | ok _ =>
        simp only [hsplit, hport, hvalid] at h
        have hchecked := validateNetworkTarget_ok hvalid
        -- in each case the attempt is one of the targets, for this host
        suffices htries : a.host = host ∧ Tries p addr portText host a.target by
          obtain ⟨rfl, htries⟩ := htries
          exact ⟨portText, port, rfl, hport, hvalid, htries⟩
        have hpick : ∀ targets : List Target, a ∈ (tried d.connects targets).map (Attempt.mk host) →
            (∀ x ∈ targets, Tries p addr portText host x) →
            a.host = host ∧ Tries p addr portText host a.target := by
          intro targets ha htargets
          obtain ⟨x, hx, rfl⟩ := mem_map.mp ha
          exact ⟨rfl, htargets x (tried_subset _ _ x hx)⟩
        cases hip : parseIP host with
        | some ip =>
          simp only [hip] at h
          refine hpick _ h fun x hx => ?_
          rw [mem_singleton.mp hx]
          refine .given hip (hchecked.2.1 ip ?_)
          rw [trimSpace_of_parseIP hip, hip]
        | none =>
          simp only [hip] at h
          by_cases hfilter : p.applyIPFilterForDomain = false
          · rw [if_pos hfilter] at h
            refine hpick _ h fun x hx => ?_
            rw [mem_singleton.mp hx]
            exact .name hip hfilter
          · rw [if_neg hfilter] at h
            cases hanswer : d.answer with
            | none => simp [hanswer] at h
            | some resolved =>
              cases hips : p.candidateIPs d.network host resolved with
              | error e => simp [hanswer, hips] at h
              | ok ips =>
                simp only [hanswer, hips] at h
                refine hpick _ h fun x hx => ?_
                obtain ⟨ip, hmem, rfl⟩ := mem_map.mp hx
                exact .resolved hip (candidateIPs_ok hips ip hmem)

theorem fetch_attempts {P : Attempt → Prop} (hdial : ∀ hop ∈ hops, ∀ d ∈ hop.dials,
      ∀ a ∈ (dialContext s (canonicalAddr t hop.url) d).1, P a) : ∀ a ∈ fetch t s hops, P a := by
  have htrip : ∀ hop ∈ hops, ∀ a ∈ (roundTrip t s hop).1, P a := by
    intro hop hhop a ha
    unfold roundTrip at ha
    split at ha
    · simp at ha
    · obtain ⟨d, hd, ha⟩ := mem_flatMap.mp ha
      exact hdial hop hhop d hd a ha
  have hfollow : ∀ via rest, rest ⊆ hops → ∀ a ∈ followRedirects t s via rest, P a := by
    intro via rest hsub
    induction rest generalizing via with
    | nil => simp [followRedirects]
    | cons hop rest ih =>
      obtain ⟨hhop, hrest⟩ := cons_subset.mp hsub
      intro a ha
      rw [followRedirects] at ha
      split at ha
      · simp at ha
      split at ha
      · rename_i heq
        rcases mem_append.mp ha with ha | ha
        · exact htrip hop hhop a (by rw [heq]; exact ha)
        · exact ih _ hrest a ha
      · rename_i heq
        exact htrip hop hhop a (by rw [heq]; exact ha)
  intro a ha
  cases hops with
  | nil => simp [fetch] at ha
  | cons hop rest =>
    rw [fetch] at ha
    split at ha
    · rename_i heq
      rcases mem_append.mp ha with ha | ha
      · exact htrip hop mem_cons_self a (by rw [heq]; exact ha)
      · exact hfollow 1 rest (subset_cons_self hop rest) a ha
    · rename_i heq
      exact htrip hop mem_cons_self a (by rw [heq]; exact ha)

theorem currentFetchProtection_on (hon : s.enableSSRFProtection = true) :
    currentFetchProtection s = some <$> newSSRFProtectionFromFetchSetting s := by
  simp [currentFetchProtection, hon]

theorem fetch_tries (hon : s.enableSSRFProtection = true) :
    ∀ a ∈ fetch t s hops, ∃ p hop portText port, newSSRFProtectionFromFetchSetting s = .ok p ∧
      hop ∈ hops ∧ splitHostPort (canonicalAddr t hop.url) = some (a.host, portText) ∧
      atoi portText = some port ∧ p.validateNetworkTarget a.host port = .ok () ∧
      Tries p (canonicalAddr t hop.url) portText a.host a.target := by
  refine fetch_attempts fun hop hhop d _ a ha => ?_
  unfold dialContext at ha
  rw [currentFetchProtection_on hon] at ha
  cases hp : newSSRFProtectionFromFetchSetting s with
  | error e => simp [hp] at ha
  | ok p =>
    simp only [hp, Functor.map] at ha
    obtain ⟨portText, port, hsplit, hport, hvalid, htries⟩ := protectedDial_tries ha
    exact ⟨p, hop, portText, port, rfl, hhop, hsplit, hport, hvalid, htries⟩

theorem protection_fields (h : newSSRFProtectionFromFetchSetting s = .ok p) :
    p.allowPrivateIp = s.allowPrivateIp ∧ p.domainFilterMode = s.domainFilterMode ∧
      p.domainList = s.domainList ∧ p.applyIPFilterForDomain = s.applyIPFilterForDomain := by
  unfold newSSRFProtectionFromFetchSetting at h
  split at h
  · cases h
  · cases h
    exact ⟨rfl, rfl, rfl, rfl⟩

/-- Whatever the URLs, redirects and lookups are, a fetch only dials an allowed address, in every
form of it, at an allowed port. -/
theorem fetch_connects_to_allowed (t : Texts) (s : FetchSetting)
    (hon : s.enableSSRFProtection = true) (hfilter : s.applyIPFilterForDomain = true)
    (hops : List Hop) :
    ∀ a ∈ fetch t s hops, ∃ p ip portText port,
      newSSRFProtectionFromFetchSetting s = .ok p ∧ a.target = .literal ip portText ∧
      atoi portText = some port ∧ p.isAllowedPort port ∧
      ∀ form : IP, form.equal ip → p.isIPAccessAllowed form ∧
        (s.allowPrivateIp = false → isPrivateIP form = false) := by
  intro a ha
  obtain ⟨p, hop, portText, port, hp, _, _, hport, hvalid, htries⟩ := fetch_tries hon a ha
  obtain ⟨hprivate, _, _, happly⟩ := protection_fields hp
  obtain ⟨ip, htarget, hip⟩ := htries.literal (happly.trans hfilter)
  refine ⟨p, ip, portText, port, hp, htarget, hport, (validateNetworkTarget_ok hvalid).1, ?_⟩
  intro form hform
  have hallowed : p.isIPAccessAllowed form := by rw [isIPAccessAllowed_congr hform, hip]
  exact ⟨hallowed, fun hs => not_private_of_allowed hallowed (hprivate.trans hs)⟩

def plainTexts : Texts where
  parse text := (cut "://" text).map fun (scheme, host) => ⟨scheme, host⟩
  text u := u.scheme ++ "://" ++ u.host
  idnaASCII host := some host

def publicIP : IP := .v4 (IP.ipv4 93 184 216 34)

/-- The redirect's name resolves to a public address when checked and to loopback when dialled. -/
theorem rebound_redirect_not_dialled :
    let hops : List Hop :=
      [{ url := ⟨"http", "example.com"⟩, lookup := some [publicIP],
         dials := [{ answer := some [some publicIP], connects := fun _ => true }] },
       { url := ⟨"http", "rebind.example:8080"⟩, redirectLookup := some [publicIP],
         lookup := some [publicIP],
         dials := [{ answer := some [some (.v6 0xffff7f000001)], connects := fun _ => true }] }]
    fetch plainTexts {} hops = [⟨"example.com", .literal publicIP "80"⟩] ∧
      ∀ a ∈ fetch plainTexts {} hops, ∃ p ip portText port,
        newSSRFProtectionFromFetchSetting {} = .ok p ∧ a.target = .literal ip portText ∧
        atoi portText = some port ∧ p.isAllowedPort port ∧
        ∀ form : IP, form.equal ip → p.isIPAccessAllowed form ∧
          ((false : Bool) = false → isPrivateIP form = false) := by
  intro hops
  exact ⟨by decide +kernel, fetch_connects_to_allowed plainTexts {} rfl rfl hops⟩

/-- What DNS reads a name as: letter case does not count, nor does one dot at the end. -/
def dnsName (s : List Char) : List Char :=
  let folded := s.map Char.toLower
  if folded.getLast? = some '.' then folded.dropLast else folded

/-- A host names a listed domain, or one below a listed wildcard. An address names none. -/
def Names (list : List String) (host : String) : Prop :=
  parseIP (trimSpace host) = none ∧ ∃ item ∈ list, trimSpace item ≠ "" ∧
    (dnsName host.toList = dnsName (trimSpace item).toList ∨
      ∃ base sub : List Char, (trimSpace item).toList = '*' :: '.' :: base ∧
        dnsName host.toList = dnsName (sub ++ '.' :: base))

def EndsInDot (s : String) : Prop := s.toList.getLast? = some '.'

instance (s : String) : Decidable (EndsInDot s) := inferInstanceAs (Decidable (_ = _))

theorem toLower_eq_dot : c.toLower = '.' ↔ c = '.' := by
  constructor
  · intro h
    rcases toLower_cases c with hc | ⟨hfrom, _, hlow⟩
    · rw [← hc, h]
    rw [h] at hlow
    change 46 = _ at hlow
    omega
  · rintro rfl
    rfl

theorem dnsName_of_no_dot {s : List Char} (h : s.getLast? ≠ some '.') :
    dnsName s = s.map Char.toLower := by
  have hfold : (s.map Char.toLower).getLast? ≠ some '.' := by
    rw [getLast?_map]
    intro hlast
    obtain ⟨c, hc, hdot⟩ := Option.map_eq_some_iff.mp hlast
    rw [toLower_eq_dot] at hdot
    exact h (hdot ▸ hc)
  simp only [dnsName, hfold, ↓reduceIte]

/-- Spaces at the ends do not depend on letter case. -/
def trimChars (s : List Char) : List Char := (s.dropWhile isSpace).rdropWhile isSpace

theorem toList_trimSpace (s : String) : (trimSpace s).toList = trimChars s.toList :=
  String.toList_ofList

theorem trimChars_map (s : List Char) :
    trimChars (s.map Char.toLower) = (trimChars s).map Char.toLower := by
  have hspace : isSpace ∘ Char.toLower = isSpace := funext isSpace_toLower
  simp only [trimChars, List.rdropWhile, dropWhile_map, ← map_reverse, hspace]

theorem toList_lower (s : String) :
    (lower s).toList = (s.toList.map Char.toLower).map lowerChar := by
  simp only [lower, String.toList_ofList, map_map]
  exact map_congr_left fun c _ => (lowerChar_toLower c).symm

theorem trimChars_append (sub : List Char) (hlast : base.getLast? = some last)
    (hspace : isSpace last = false) :
    trimChars (sub ++ '.' :: base) = sub.dropWhile isSpace ++ '.' :: base := by
  obtain ⟨front, rfl⟩ := getLast?_eq_some_iff.mp hlast
  have hleft : (sub ++ '.' :: (front ++ [last])).dropWhile isSpace =
      sub.dropWhile isSpace ++ '.' :: (front ++ [last]) := by
    induction sub with
    | nil => rfl
    | cons c sub ih =>
      by_cases hc : isSpace c
      · simpa [dropWhile_cons, hc] using ih
      · simp [hc]
  have hend : sub.dropWhile isSpace ++ '.' :: (front ++ [last]) =
      (sub.dropWhile isSpace ++ '.' :: front) ++ [last] := by simp
  rw [trimChars, hleft, hend, rdropWhile_concat_neg _ _ _ (by simp [hspace])]

theorem toList_lower_trimSpace (s : String) :
    (lower (trimSpace s)).toList = (trimChars (s.toList.map Char.toLower)).map lowerChar := by
  rw [toList_lower, toList_trimSpace, trimChars_map]

theorem lower_trimSpace_congr {s s' : String}
    (h : s.toList.map Char.toLower = s'.toList.map Char.toLower) :
    lower (trimSpace s) = lower (trimSpace s') := by
  rw [← String.toList_inj, toList_lower_trimSpace, h, toList_lower_trimSpace]

theorem last_of_trimSpace (h : (trimSpace item).toList.getLast? = some c) : isSpace c = false := by
  rw [toList_trimSpace, trimChars] at h
  obtain ⟨front, hfront⟩ := getLast?_eq_some_iff.mp h
  have hne : (item.toList.dropWhile isSpace).rdropWhile isSpace ≠ [] := by simp [hfront]
  have hlast := rdropWhile_last_not isSpace _ hne
  simpa [hfront] using hlast

/-- The matcher finds a host that names a listed domain, if no dot stands at an end. -/
theorem listed_of_names {list : List String} (hnames : Names list host)
    (hdot : ¬ EndsInDot host) (hlist : ∀ item ∈ list, ¬ EndsInDot (trimSpace item)) :
    isDomainListed (trimSpace host) list = true := by
  obtain ⟨_, item, hitem, hne, hmatch⟩ := hnames
  have hnodot := hlist item hitem
  rw [dnsName_of_no_dot hdot] at hmatch
  have hne' : lower (trimSpace item) ≠ "" := by
    intro hempty
    have hlist := congrArg String.toList hempty
    rw [toList_lower] at hlist
    simp only [String.toList_empty, map_eq_nil_iff, String.toList_eq_nil_iff] at hlist
    exact hne hlist
  refine any_eq_true.mpr ⟨item, hitem, ?_⟩
  simp only [decide_eq_true_eq]
  refine ⟨hne', ?_⟩
  rcases hmatch with hexact | ⟨base, sub, hwild, hsub⟩
  · rw [dnsName_of_no_dot hnodot] at hexact
    left
    rw [lower_trimSpace_congr hexact, trimSpace_trimSpace]
  right
  obtain ⟨last, hlast⟩ : ∃ last, base.getLast? = some last := by
    cases base with
    | nil => exact absurd (by simp [EndsInDot, hwild]) hnodot
    | cons c base => exact ⟨_, getLast?_eq_some_getLast (cons_ne_nil c base)⟩
  have hend : (trimSpace item).toList.getLast? = some last := by
    rw [hwild, getLast?_cons, getLast?_cons, hlast]
    rfl
  have hsubdot : (sub ++ '.' :: base).getLast? ≠ some '.' := by
    intro h
    rw [getLast?_append, getLast?_cons, hlast] at h
    exact hnodot (hend.trans h)
  rw [dnsName_of_no_dot hsubdot] at hsub
  have hbase : (base.map Char.toLower).getLast? = some last.toLower := by
    rw [getLast?_map, hlast, Option.map_some]
  have hspace : isSpace last.toLower = false := by
    rw [isSpace_toLower]
    exact last_of_trimSpace hend
  have hhost : (lower (trimSpace host)).toList =
      ((sub.map Char.toLower).dropWhile isSpace).map lowerChar ++
        '.' :: (base.map Char.toLower).map lowerChar := by
    rw [toList_lower_trimSpace, hsub, map_append, map_cons]
    have hcut := trimChars_append (sub.map Char.toLower) hbase hspace
    change (trimChars (sub.map Char.toLower ++ '.' :: base.map Char.toLower)).map lowerChar = _
    rw [hcut, map_append, map_cons]
    rfl
  have hitem' : (lower (trimSpace item)).toList =
      '*' :: '.' :: (base.map Char.toLower).map lowerChar := by
    rw [toList_lower, hwild]
    rfl
  have hstarts : startsWith "*." (lower (trimSpace item)) = true := by
    rw [startsWith, hitem']
    rfl
  have hdrop : (dropStart "*." (lower (trimSpace item))).toList =
      (base.map Char.toLower).map lowerChar := by
    rw [dropStart, if_pos hstarts, String.toList_ofList, hitem']
    rfl
  refine ⟨hstarts, .inl ?_⟩
  rw [endsWith, String.toList_append, hdrop, hhost, isSuffixOf_iff_suffix]
  exact suffix_append _ _

/-- Where no host and no domain of the blacklist ends in a dot, a fetch never dials for a host that
names a listed domain. -/
theorem fetch_avoids_blacklisted (t : Texts) (s : FetchSetting)
    (hon : s.enableSSRFProtection = true) (hmode : s.domainFilterMode = false) (hops : List Hop)
    (hlist : ∀ item ∈ s.domainList, ¬ EndsInDot (trimSpace item))
    (hhosts : ∀ hop ∈ hops, ∀ host portText,
      splitHostPort (canonicalAddr t hop.url) = some (host, portText) → ¬ EndsInDot host) :
    ∀ a ∈ fetch t s hops, ¬ Names s.domainList a.host := by
  intro a ha hnames
  obtain ⟨p, hop, portText, port, hp, hhop, hsplit, _, hvalid, _⟩ := fetch_tries hon a ha
  obtain ⟨_, hpmode, hplist, _⟩ := protection_fields hp
  have hlisted := listed_of_names hnames (hhosts hop hhop a.host portText hsplit) hlist
  have hallowed := (validateNetworkTarget_ok hvalid).2.2 hnames.1
  simp [isDomainAllowed, hpmode, hmode, hplist, hlisted] at hallowed

/-- Neither a listed domain in capitals nor one below a listed wildcard is dialled, the
third host is. -/
theorem listed_spellings_not_dialled :
    let s : FetchSetting := { domainList := ["evil.example", " *.Bad.example "] }
    let visit (host : String) : Hop :=
      { url := ⟨"http", host⟩, lookup := some [publicIP],
        dials := [{ answer := some [some publicIP], connects := fun _ => true }] }
    fetch plainTexts s [visit "EVIL.example"] = [] ∧
      fetch plainTexts s [visit "a.bad.EXAMPLE"] = [] ∧
      fetch plainTexts s [visit "example.com"] = [⟨"example.com", .literal publicIP "80"⟩] ∧
      ∀ a ∈ fetch plainTexts s [visit "example.com"], ¬ Names s.domainList a.host := by
  intro s visit
  have hlist : ∀ item ∈ s.domainList, ¬ EndsInDot (trimSpace item) := by decide +kernel
  have haddr : splitHostPort (canonicalAddr plainTexts ⟨"http", "example.com"⟩) =
      some ("example.com", "80") := by decide +kernel
  have hhosts : ∀ hop ∈ [visit "example.com"], ∀ host portText,
      splitHostPort (canonicalAddr plainTexts hop.url) = some (host, portText) →
        ¬ EndsInDot host := by
    intro hop hhop host portText hsplit
    rw [mem_singleton.mp hhop, haddr] at hsplit
    cases hsplit
    decide
  exact ⟨by decide +kernel, by decide +kernel, by decide +kernel,
    fetch_avoids_blacklisted plainTexts s rfl rfl [visit "example.com"] hlist hhosts⟩

/-- A dot at the end of the host leads past the list to the same domain. -/
theorem trailing_dot_dialled :
    let s : FetchSetting := { domainList := ["evil.example"] }
    let hops : List Hop :=
      [{ url := ⟨"http", "evil.example."⟩, lookup := some [publicIP],
         dials := [{ answer := some [some publicIP], connects := fun _ => true }] }]
    fetch plainTexts s hops = [⟨"evil.example.", .literal publicIP "80"⟩] ∧
      Names s.domainList "evil.example." := by
  intro s hops
  refine ⟨by decide +kernel, by decide +kernel, "evil.example", mem_singleton_self _, ?_, .inl ?_⟩
  · decide +kernel
  · decide +kernel

end Ren2Hub.Proofs.FetchRuns
