import LocalCast.Server.LanPublisher

/-!
The address that is published with the certificate of the local network.

* `filter_insertionSort`: sorting is stable under dropping elements.
* `physical`, `withoutTunnels`: the addresses of real adapters, and a table without the tunnels;
  `lanIpv4Addresses_congr`: while there is a physical address, the tunnels do not matter.
* `publishHostFrom_default`: what is published is the machine's name where that is written as an
  address, else the best address, else a name.
* `load_of_ensure`: what `ensureLanCertificate` returned is found again.
* `PublishedWell`: the published host is covered, no loopback address and no tunnel's, and the
  fingerprint is the same whatever tunnels come and go.
* `published_well_iff`: that is so unless the machine's name is itself a loopback or a tunnel's
  address.
* `published_loopback`: a machine whose name is written as a loopback address.
-/

namespace LocalCast.Server

open JsString JsNumber

/-! ### Lists -/

section Lists

variable {α : Type*}

/-- Inserting into a sorted list and dropping elements. -/
lemma filter_orderedInsert {r : α → α → Prop} [DecidableRel r] [IsTrans α r] (p : α → Bool)
    (a : α) {l : List α} (hl : l.Pairwise r) : (l.orderedInsert r a).filter p =
      if p a then (l.filter p).orderedInsert r a else l.filter p := by
  induction l with
  | nil => cases hp : p a <;> simp [hp]
  | cons b l ih =>
      have hb := List.pairwise_cons.mp hl
      by_cases hab : r a b
      · rw [List.orderedInsert_cons_of_le r l hab, List.filter_cons]
        split_ifs with hp
        · -- whatever is left of the list comes behind `a`
          have hfirst : ∀ c ∈ (b :: l).filter p, r a c := by
            intro c hc
            rcases List.mem_cons.mp (List.mem_of_mem_filter hc) with rfl | hc
            · exact hab
            · exact trans_of r hab (hb.1 c hc)
          cases hrest : (b :: l).filter p with
          | nil => rfl
          | cons c rest =>
              rw [List.orderedInsert_cons_of_le r rest (hfirst c (by simp [hrest]))]
        · rfl
      · rw [List.orderedInsert_of_not_le r l hab, List.filter_cons, List.filter_cons, ih hb.2]
        split_ifs with hpb hpa
        · rw [List.orderedInsert_of_not_le r _ hab]
        · rfl
        · rfl
        · rfl

/-- **Sorting is stable under dropping elements.** -/
lemma filter_insertionSort {r : α → α → Prop} [DecidableRel r] [Std.Total r] [IsTrans α r]
    (p : α → Bool) (l : List α) :
    (l.insertionSort r).filter p = (l.filter p).insertionSort r := by
  induction l with
  | nil => rfl
  | cons a l ih =>
      rw [List.insertionSort_cons, filter_orderedInsert p a (List.pairwise_insertionSort r l), ih,
        List.filter_cons]
      split_ifs <;> rfl

/-- The first element of a kind is the same without duplicates. -/
lemma find?_eraseDups [BEq α] [LawfulBEq α] (p : α → Bool) (l : List α) :
    l.eraseDups.find? p = l.find? p := by
  induction hn : l.length using Nat.strong_induction_on generalizing l with
  | _ n ih =>
      cases l with
      | nil => rfl
      | cons a l =>
          rw [List.eraseDups_cons, List.find?_cons, List.find?_cons]
          cases hp : p a with
          | true => rfl
          | false =>
              have hlt : (l.filter fun b => !b == a).length < n := by
                rw [← hn]
                exact Nat.lt_succ_of_le (List.length_filter_le _ _)
              rw [ih _ hlt _ rfl, List.find?_filter]
              refine congrArg (fun q => List.find? q l) (funext fun b => ?_)
              by_cases hb : b = a
              · simp [hb, hp]
              · simp [hb]

end Lists

/-! ### Physical adapters and tunnels -/

instance : Std.Total fun a b : LanCandidate => a.before b = true where
  total a b := by
    simp only [LanCandidate.before]
    cases a.tunnel <;> cases b.tunnel <;> simp [Nat.le_total]

instance : IsTrans LanCandidate fun a b => a.before b = true where
  trans a b c := by
    simp only [LanCandidate.before]
    cases a.tunnel <;> cases b.tunnel <;> cases c.tunnel <;> simp
    all_goals exact Nat.le_trans

/-- The usable addresses of an adapter. -/
def usableAddresses (adapter : JsString) (addresses : List InterfaceInfo) : List LanCandidate :=
  (addresses.filter fun a =>
    a.family = .ipv4 && !a.internal && !(js "169.254.").isPrefixOf a.address).map fun a =>
      ⟨a.address, adapter, (classify adapter a.address a.mac).1,
        (classify adapter a.address a.mac).2⟩

lemma lanCandidates_eq (interfaces : Interfaces) : lanCandidates interfaces =
    (interfaces.flatMap fun e => usableAddresses e.1 e.2).insertionSort
      fun a b => a.before b = true := rfl

/-- The usable addresses of real adapters, best first. -/
def physical (interfaces : Interfaces) : List LanCandidate :=
  (lanCandidates interfaces).filter fun candidate => !candidate.tunnel

/-- The table without the addresses of tunnels, and without the adapters that had no others. -/
def withoutTunnels (interfaces : Interfaces) : Interfaces :=
  (interfaces.map fun e => (e.1, e.2.filter fun a => !(classify e.1 a.address a.mac).1)).filter
    fun e => !e.2.isEmpty

/-- A tunnel has the address, and no real adapter. -/
def isTunnelAddress (interfaces : Interfaces) (address : JsString) : Bool :=
  ((lanCandidates interfaces).any fun c => c.tunnel && c.address = address) &&
    !((physical interfaces).any fun c => c.address = address)

lemma filter_usableAddresses (adapter : JsString) (addresses : List InterfaceInfo) :
    (usableAddresses adapter addresses).filter (fun candidate => !candidate.tunnel) =
      usableAddresses adapter
        (addresses.filter fun a => !(classify adapter a.address a.mac).1) := by
  rw [usableAddresses, List.filter_map, List.filter_filter, usableAddresses, List.filter_filter]
  refine congrArg _ (congrArg (fun q => List.filter q addresses) (funext fun a => ?_))
  exact Bool.and_comm _ _

/-- The physical addresses are those of the table without the tunnels. -/
lemma physical_eq (interfaces : Interfaces) : physical interfaces =
    ((withoutTunnels interfaces).flatMap fun e => usableAddresses e.1 e.2).insertionSort
      fun a b => a.before b = true := by
  rw [physical, lanCandidates_eq, filter_insertionSort]
  refine congrArg _ ?_
  rw [withoutTunnels]
  induction interfaces with
  | nil => rfl
  | cons e rest ih =>
      rw [List.flatMap_cons, List.filter_append, ih, filter_usableAddresses, List.map_cons,
        List.filter_cons]
      split_ifs with hempty
      · rw [List.flatMap_cons]
      · have hnone : e.2.filter (fun a => !(classify e.1 a.address a.mac).1) = [] := by
          simpa using hempty
        rw [hnone]
        rfl

/-- While there is a physical address, only those are published. -/
lemma lanIpv4Addresses_of_physical {interfaces : Interfaces} (h : physical interfaces ≠ []) :
    lanIpv4Addresses interfaces = (physical interfaces).map LanCandidate.address := by
  have hpos : ((lanCandidates interfaces).filter fun candidate => !candidate.tunnel).length > 0 :=
    List.length_pos_iff.mpr h
  rw [lanIpv4Addresses]
  exact congrArg _ (if_pos hpos)

/-- While there is a physical address, tunnels come and go without a trace. -/
lemma lanIpv4Addresses_congr {interfaces interfaces' : Interfaces}
    (h : physical interfaces ≠ [])
    (hsame : withoutTunnels interfaces' = withoutTunnels interfaces) :
    lanIpv4Addresses interfaces' = lanIpv4Addresses interfaces := by
  have hphysical : physical interfaces' = physical interfaces := by
    rw [physical_eq, physical_eq, hsame]
  rw [lanIpv4Addresses_of_physical h, lanIpv4Addresses_of_physical (hphysical ▸ h), hphysical]

/-! ### What is published -/

/-- The machine's own name, as it is written into the certificate. -/
def machineName (options : SanOptions) : JsString := options.toLowerCase (trim options.hostname)

/-- What `publishHostFrom` looks for first. -/
def preferred (host : JsString) : Bool := isIpv4 host && host ≠ js "127.0.0.1"

/-- `127.0.0.0/8`. -/
def isLoopback (host : JsString) : Bool := isIpv4 host && (js "127.").isPrefixOf host

/-- `os.networkInterfaces()` marks the loopback addresses. -/
def LoopbackInternal (interfaces : Interfaces) : Prop :=
  ∀ e ∈ interfaces, ∀ a ∈ e.2, a.family = .ipv4 → isLoopback a.address = true → a.internal = true

lemma isLabel_of_isStrictOctet {p : JsString} (h : isStrictOctet p = true) :
    isLabel p = true := by
  obtain ⟨hne, hdigits⟩ := of_isStrictOctet h
  have halnum : ∀ c ∈ p, isAlnum c = true := fun c hc => by simp [isAlnum, hdigits c hc]
  simp only [isLabel, Bool.and_eq_true, List.all_eq_true, Option.any_eq_true]
  refine ⟨⟨fun c hc => by simp [halnum c hc], ?_⟩, ?_⟩
  · exact ⟨p.head hne, List.head?_eq_some_head hne, halnum _ (List.head_mem hne)⟩
  · exact ⟨p.getLast hne, List.getLast?_eq_some_getLast hne, halnum _ (List.getLast_mem hne)⟩

lemma isDnsName_of_isIpv4 {host : JsString} (h : isIpv4 host = true) : isDnsName host = true := by
  simp only [isIpv4, Bool.and_eq_true, List.all_eq_true] at h
  exact List.all_eq_true.mpr fun p hp => isLabel_of_isStrictOctet (h.2 p hp)

/-- A name with a suffix is no address. -/
lemma not_isIpv4_local {name : JsString} (h : name.contains 46 = false) :
    isIpv4 (name ++ js ".local") = false := by
  have hname : ∀ c ∈ name, decide (c = 46) = false := by
    intro c hc
    refine decide_eq_false ?_
    rintro rfl
    cases h.symm.trans (List.contains_iff_mem.mpr hc)
  have hsplit : splitOn (fun c => c = 46) (name ++ js ".local") = [name, js "local"] :=
    splitOn_append_sep name hname 46 (by decide) (js "local")
  simp [isIpv4, hsplit]

/-- The first choice: the machine's name where that is written as an address, else the first
address of the table. -/
lemma find?_preferred {options : SanOptions} (hextra : options.extraHosts = [])
    (interfaces : Interfaces) : (defaultSanHosts options interfaces).find? preferred =
      if preferred (machineName options) then some (machineName options)
      else (lanIpv4Addresses interfaces).find? preferred := by
  have hkept : (fun host => decide ((isIpv4 host || isDnsName host) = true ∧
      preferred host = true)) = preferred := by
    funext host
    cases hhost : isIpv4 host <;> simp [preferred, hhost]
  have hfirst : [js "localhost", js "127.0.0.1"].find? preferred = none := by decide
  rw [defaultSanHosts, hextra, List.find?_filter]
  simp only [hkept, find?_eraseDups, List.map_nil, List.filter_nil, List.append_nil,
    List.find?_append, hfirst, Option.none_or]
  change (List.find? preferred (if isDnsName (machineName options) = true then _ else _)).or _ = _
  by_cases hname : preferred (machineName options) = true
  · have hdns : isDnsName (machineName options) = true := by
      rw [preferred, Bool.and_eq_true] at hname
      exact isDnsName_of_isIpv4 hname.1
    rw [if_pos hdns, if_pos hname]
    change (List.find? preferred (machineName options :: _)).or _ = _
    rw [List.find?_cons_of_pos hname, Option.some_or]
  · have hnone : List.find? preferred (if isDnsName (machineName options) = true then
        machineName options :: (if (machineName options).contains 46 then []
          else [machineName options ++ js ".local"]) else []) = none := by
      split_ifs with hdns hdot
      · simp [hname]
      · have hlocal : preferred (machineName options ++ js ".local") = false := by
          rw [preferred, not_isIpv4_local (by simpa using hdot), Bool.false_and]
        simp [hname, hlocal]
      · rfl
    rw [if_neg hname]
    exact (congrArg (fun o => Option.or o _) hnone).trans Option.none_or

lemma publishHostFrom_eq (hosts : List JsString) : publishHostFrom hosts =
    (hosts.find? preferred).or (hosts.find? fun host => !isIpv4 host && host ≠ js "localhost") := by
  cases hfind : hosts.find? preferred with
  | none =>
      have hnone : hosts.find? (fun host => isIpv4 host && host ≠ js "127.0.0.1") = none := hfind
      simp only [publishHostFrom, hnone, Option.none_or]
  | some host =>
      have hsome : hosts.find? (fun host => isIpv4 host && host ≠ js "127.0.0.1") = some host :=
        hfind
      simp only [publishHostFrom, hsome, Option.some_or]

/-- **What is published**: the machine's name where that is written as an address, an address of
the table, or a name. -/
lemma published_cases {options : SanOptions} (hextra : options.extraHosts = [])
    {interfaces : Interfaces} {host : JsString}
    (h : publishHostFrom (defaultSanHosts options interfaces) = some host) :
    (preferred (machineName options) = true ∧ host = machineName options) ∨
      (preferred (machineName options) = false ∧ host ∈ lanIpv4Addresses interfaces) ∨
      isIpv4 host = false := by
  rw [publishHostFrom_eq, find?_preferred hextra, Option.or_eq_some_iff] at h
  rcases h with h | ⟨-, h⟩
  · split_ifs at h with hname
    · exact .inl ⟨hname, (Option.some.inj h).symm⟩
    · exact .inr (.inl ⟨by simpa using hname, List.mem_of_find?_eq_some h⟩)
  · have hfound := List.find?_some h
    simp only [Bool.and_eq_true, Bool.not_eq_true'] at hfound
    exact .inr (.inr hfound.1)

/-- A machine whose name is written as an address publishes it. -/
lemma published_name {options : SanOptions} (hextra : options.extraHosts = [])
    (interfaces : Interfaces) (hname : preferred (machineName options) = true) :
    publishHostFrom (defaultSanHosts options interfaces) = some (machineName options) := by
  rw [publishHostFrom_eq, find?_preferred hextra, if_pos hname]
  rfl

lemma mem_candidates_of_mem {interfaces : Interfaces} {address : JsString}
    (h : address ∈ lanIpv4Addresses interfaces) :
    ∃ c ∈ lanCandidates interfaces, c.address = address := by
  obtain ⟨c, hc, rfl⟩ := List.mem_map.mp h
  split_ifs at hc
  · exact ⟨c, List.mem_of_mem_filter hc, rfl⟩
  · exact ⟨c, hc, rfl⟩

/-- A candidate is an IPv4 address of the table that is not internal. -/
lemma of_mem_lanCandidates {interfaces : Interfaces} {c : LanCandidate}
    (h : c ∈ lanCandidates interfaces) : ∃ e ∈ interfaces, ∃ a ∈ e.2,
      a.family = .ipv4 ∧ a.internal = false ∧ a.address = c.address := by
  rw [lanCandidates_eq, List.mem_insertionSort, List.mem_flatMap] at h
  obtain ⟨e, he, hc⟩ := h
  obtain ⟨a, ha, rfl⟩ := List.mem_map.mp hc
  obtain ⟨hmem, husable⟩ := List.mem_filter.mp ha
  simp only [Bool.and_eq_true, decide_eq_true_eq, Bool.not_eq_true'] at husable
  exact ⟨e, he, a, hmem, husable.1.1, husable.1.2, rfl⟩

lemma not_loopback_of_mem {interfaces : Interfaces} (hloop : LoopbackInternal interfaces)
    {address : JsString} (h : address ∈ lanIpv4Addresses interfaces) :
    isLoopback address = false := by
  obtain ⟨c, hc, rfl⟩ := mem_candidates_of_mem h
  obtain ⟨e, he, a, ha, hfamily, hinternal, haddress⟩ := of_mem_lanCandidates hc
  by_contra hback
  rw [Bool.not_eq_false, ← haddress] at hback
  cases hinternal.symm.trans (hloop e he a ha hfamily hback)

lemma not_tunnel_of_mem {interfaces : Interfaces} (hphysical : physical interfaces ≠ [])
    {address : JsString} (h : address ∈ lanIpv4Addresses interfaces) :
    isTunnelAddress interfaces address = false := by
  rw [lanIpv4Addresses_of_physical hphysical] at h
  obtain ⟨c, hc, rfl⟩ := List.mem_map.mp h
  have hany : ((physical interfaces).any fun d => d.address = c.address) = true :=
    List.any_eq_true.mpr ⟨c, hc, by simp⟩
  simp [isTunnelAddress, hany]

/-- What is no IPv4 address is no tunnel's. -/
lemma not_tunnel_of_name {interfaces : Interfaces} {host : JsString} (h : isIpv4 host = false) :
    isTunnelAddress interfaces host = false := by
  have hnone : ((lanCandidates interfaces).any fun c => c.tunnel && c.address = host) = false := by
    rw [List.any_eq_false]
    intro c hc hboth
    simp only [Bool.and_eq_true, decide_eq_true_eq] at hboth
    obtain ⟨e, he, a, ha, hfamily, -, haddress⟩ := of_mem_lanCandidates hc
    have hplain := a.plain hfamily
    rw [haddress, hboth.2, h] at hplain
    cases hplain
  rw [isTunnelAddress, hnone]
  rfl

/-! ### What is found again -/

/-- A certificate has the times it was issued with, in whole seconds. -/
def Crypto.Dated (crypto : Crypto) : Prop :=
  ∀ {random : ℕ} {tbs : Tbs} {key cert : JsString} {x : X509},
    crypto.issue random tbs = some (key, cert) → crypto.parse cert = some x →
    (∃ validFrom, x.validFrom = some validFrom ∧ validFrom ≤ tbs.notBefore) ∧
    ∃ validTo, x.validTo = some validTo ∧ tbs.notAfter - 1000 < validTo

variable {crypto : Crypto} {hosts : List JsString} {attempt : Attempt} {files files' : TlsFiles}
  {cert : LanCertificate}

/-- What was generated is usable for the names it was generated for. -/
lemma usable_of_generate (hlaw : crypto.Lawful) (hdated : crypto.Dated)
    (hnames : ∀ host ∈ hosts, isIpv4 host = true ∨ isDnsName host = true) {now : ℤ} {random : ℕ}
    (h : generateLanCertificate crypto hosts now random = some cert) :
    ∃ x, crypto.parse cert.certPem = some x ∧ x.fingerprint256 = cert.fingerprint256 ∧
      usable x cert.keyPem hosts now = true := by
  rw [generateLanCertificate] at h
  split_ifs at h
  simp only at h
  split at h
  · cases h
  case h_2 keyPem certPem hissue =>
    split at h
    · cases h
    case h_2 parsed hparse =>
      split_ifs at h with hkey
      cases h
      obtain ⟨⟨validFrom, hfrom, hle⟩, validTo, hto, hlt⟩ := hdated hissue hparse
      have hcovers : hosts.all parsed.covers = true :=
        List.all_eq_true.mpr fun host hmem =>
          covers_of_issue hlaw hissue hparse hmem (hnames host hmem)
      simp only [Bool.or_eq_true, Bool.not_eq_true', not_or, Bool.not_eq_false,
        decide_eq_true_eq, not_not] at hkey
      have hstarted : ¬validFrom > now := by
        have : validFrom ≤ now - 60000 := hle
        omega
      have hlong : ¬validTo - now < renewBeforeMs := by
        have : now - 60000 + lifetimeMs - 1000 < validTo := hlt
        simp only [lifetimeMs, renewBeforeMs] at *
        omega
      refine ⟨parsed, hparse, rfl, ?_⟩
      simp [usable, hkey.1, hkey.2, hfrom, hto, hstarted, hlong, hcovers]

/-- **What `ensureLanCertificate` returned is found again** at the same time, with its
fingerprint. -/
lemma load_of_ensure (hlaw : crypto.Lawful) (hdated : crypto.Dated)
    (hnames : ∀ host ∈ hosts, isIpv4 host = true ∨ isDnsName host = true)
    (h : ensureLanCertificate crypto hosts attempt files = (some cert, files')) :
    ∃ again, loadLanCertificate crypto files' true hosts attempt.now = some again ∧
      again.fingerprint256 = cert.fingerprint256 := by
  rw [ensureLanCertificate] at h
  split at h
  case h_1 existing hload =>
    cases h
    refine ⟨cert, ?_, rfl⟩
    have hreadable : attempt.readable = true := by
      by_contra hunread
      rw [Bool.not_eq_true] at hunread
      simp [loadLanCertificate, hunread] at hload
    rw [hreadable] at hload
    exact hload
  case h_2 =>
    split at h
    · cases h
    case h_2 generated hgenerate =>
      obtain ⟨x, hparse, hfp, husable⟩ := usable_of_generate hlaw hdated hnames hgenerate
      dsimp only at h
      split_ifs at h with hdirectory hkey hcert <;> cases h
      have hkeyText : attempt.key.result cert.keyPem = some cert.keyPem := by
        cases hk : attempt.key with
        | written => rfl
        | failed left => simp [hk, WriteOutcome.ok] at hkey
      have hcertText : attempt.cert.result cert.certPem = some cert.certPem := by
        cases hc : attempt.cert with
        | written => rfl
        | failed left => simp [hc, WriteOutcome.ok] at hcert
      simp only [loadLanCertificate, hkeyText, hcertText, hparse, husable, if_true]
      exact ⟨_, rfl, hfp⟩

/-! ### The law -/

/-- The address that is published is covered, is no loopback address, and no tunnel's while there
is a physical one; then the fingerprint is the same whatever tunnels come and go before the next
call that can read the files. -/
structure PublishedWell (crypto : Crypto) (options : SanOptions) (interfaces : Interfaces)
    (now : ℤ) (cert : LanCertificate) (files : TlsFiles) : Prop where
  covered : ∀ host, cert.publishHost = some host →
    (crypto.parse cert.certPem).any (fun x => x.covers host) = true
  routable : ∀ host, cert.publishHost = some host → isLoopback host = false
  physical : physical interfaces ≠ [] → ∀ host, cert.publishHost = some host →
    isTunnelAddress interfaces host = false
  stable : Server.physical interfaces ≠ [] → ∀ interfaces' attempt' cert' files',
    withoutTunnels interfaces' = withoutTunnels interfaces → attempt'.now = now →
    attempt'.readable = true →
    ensureLanCertificate crypto (defaultSanHosts options interfaces') attempt' files =
      (some cert', files') → cert'.fingerprint256 = cert.fingerprint256

/-- The machine's name is not written as a loopback address, nor as one of a tunnel while there
is a physical one. -/
def nameApart (options : SanOptions) (interfaces : Interfaces) : Bool :=
  !preferred (machineName options) ||
    (!isLoopback (machineName options) &&
      ((physical interfaces).isEmpty || !isTunnelAddress interfaces (machineName options)))

/-- **Where the published address is covered, neither a loopback address nor a tunnel's, and the
fingerprint stable**: for every table whose loopback addresses are marked and all files there
were, exactly where the machine's name is not written as a loopback address, nor as a tunnel's
while there is a physical one. -/
theorem published_well_iff (hlaw : crypto.Lawful) (hdated : crypto.Dated) {options : SanOptions}
    (hextra : options.extraHosts = []) {interfaces : Interfaces}
    (hloop : LoopbackInternal interfaces)
    (h : ensureLanCertificate crypto (defaultSanHosts options interfaces) attempt files =
      (some cert, files')) :
    PublishedWell crypto options interfaces attempt.now cert files' ↔
      nameApart options interfaces = true := by
  have hfits := fits_of_ensure hlaw (fun _ => of_mem_defaultSanHosts) h
  constructor
  · intro hwell
    by_cases hname : preferred (machineName options) = true
    · have hpublished := hfits.published.trans (published_name hextra interfaces hname)
      have hloopback := hwell.routable _ hpublished
      by_cases hphysical : physical interfaces = []
      · simp [nameApart, hloopback, hphysical]
      · simp [nameApart, hloopback, hwell.physical hphysical _ hpublished]
    · simp [nameApart, hname]
  · intro hapart
    simp only [nameApart, Bool.or_eq_true, Bool.and_eq_true, Bool.not_eq_true',
      List.isEmpty_iff] at hapart
    have hcases := fun host (hhost : cert.publishHost = some host) =>
      published_cases hextra (hfits.published.symm.trans hhost)
    refine ⟨fun host => hfits.publishes, fun host hhost => ?_, fun hphysical host hhost => ?_, ?_⟩
    · rcases hcases host hhost with ⟨hname, rfl⟩ | ⟨-, hmem⟩ | hnot
      · exact (hapart.resolve_left (by simp [hname])).1
      · exact not_loopback_of_mem hloop hmem
      · simp [isLoopback, hnot]
    · rcases hcases host hhost with ⟨hname, rfl⟩ | ⟨-, hmem⟩ | hnot
      · exact (hapart.resolve_left (by simp [hname])).2.resolve_left hphysical
      · exact not_tunnel_of_mem hphysical hmem
      · exact not_tunnel_of_name hnot
    · intro hphysical interfaces' attempt' cert' files'' hsame hnow hreadable hnext
      have hhosts : defaultSanHosts options interfaces' = defaultSanHosts options interfaces :=
        hosts_of_addresses options (lanIpv4Addresses_congr hphysical hsame)
      obtain ⟨again, hagain, hfp⟩ := load_of_ensure hlaw hdated
        (fun _ => of_mem_defaultSanHosts) h
      rw [hhosts, ensureLanCertificate, hnow, hreadable, hagain] at hnext
      cases hnext
      exact hfp

/-! ### A machine with an address for a name -/

/-- The library of `textCrypto`, for times since 1970. -/
def datedCrypto : Crypto :=
  { textCrypto with
    issue := fun random tbs => if tbs.notBefore < 0 then none else textCrypto.issue random tbs }

lemma issue_datedCrypto {random : ℕ} {tbs : Tbs} {key cert : JsString}
    (h : datedCrypto.issue random tbs = some (key, cert)) :
    0 ≤ tbs.notBefore ∧ textCrypto.issue random tbs = some (key, cert) := by
  simp only [datedCrypto] at h
  split_ifs at h with hneg
  exact ⟨not_lt.mp hneg, h⟩

lemma datedCrypto_lawful : datedCrypto.Lawful where
  host hissue hparse := textCrypto_lawful.host (issue_datedCrypto hissue).2 hparse
  ip hissue hparse := textCrypto_lawful.ip (issue_datedCrypto hissue).2 hparse

lemma datedCrypto_dated : datedCrypto.Dated := by
  intro random tbs key cert x hissue hparse
  obtain ⟨hpos, hissue⟩ := issue_datedCrypto hissue
  obtain ⟨-, -, hfrom, hto⟩ := names_of_parse hissue hparse
  refine ⟨⟨tbs.notBefore.toNat, hfrom, ?_⟩, tbs.notAfter.toNat, hto, ?_⟩
  · omega
  · omega

/-- A home network with a tunnel. -/
def homeTable : Interfaces :=
  (js "wg0", [⟨js "10.8.0.2", .ipv4, false, js "00:00:00:00:00:00", fun _ => by decide⟩])
    :: at50

/-- A machine of the given name. -/
def namedMachine (hostname : JsString) : SanOptions := ⟨[], hostname, lower⟩

lemma loopbackInternal_home : LoopbackInternal homeTable := by
  unfold LoopbackInternal
  decide

/-- What a first call publishes on the home network, by the machine's name. -/
lemma exists_first_issue (hostname published : JsString)
    (h : (ensureLanCertificate datedCrypto (defaultSanHosts (namedMachine hostname) homeTable)
      (goodAttempt 1) ⟨none, none⟩).1.any (fun cert => cert.publishHost = some published) = true) :
    ∃ cert files', ensureLanCertificate datedCrypto
        (defaultSanHosts (namedMachine hostname) homeTable) (goodAttempt 1) ⟨none, none⟩ =
      (some cert, files') ∧ cert.publishHost = some published := by
  obtain ⟨cert, hcert, hpublished⟩ := (Option.any_eq_true _ _).mp h
  exact ⟨cert, _, Prod.ext hcert rfl, of_decide_eq_true hpublished⟩

theorem published_well_home : ∃ cert files',
    ensureLanCertificate datedCrypto (defaultSanHosts (namedMachine (js "PC")) homeTable)
      (goodAttempt 1) ⟨none, none⟩ = (some cert, files') ∧
    cert.publishHost = some (js "192.168.1.50") ∧
    PublishedWell datedCrypto (namedMachine (js "PC")) homeTable (goodAttempt 1).now cert
      files' := by
  obtain ⟨cert, files', hissue, hpublished⟩ := exists_first_issue (js "PC") (js "192.168.1.50")
    (by decide)
  exact ⟨cert, files', hissue, hpublished, (published_well_iff datedCrypto_lawful datedCrypto_dated
    rfl loopbackInternal_home hissue).mpr (by decide)⟩

/-- **A machine whose name is written as a loopback address** publishes that, although it has an
address on the local network. -/
theorem published_loopback : ∃ cert files',
    ensureLanCertificate datedCrypto (defaultSanHosts (namedMachine (js "127.0.0.2")) homeTable)
      (goodAttempt 1) ⟨none, none⟩ = (some cert, files') ∧
    cert.publishHost = some (js "127.0.0.2") ∧ physical homeTable ≠ [] ∧
    ¬PublishedWell datedCrypto (namedMachine (js "127.0.0.2")) homeTable (goodAttempt 1).now cert
      files' := by
  obtain ⟨cert, files', hissue, hpublished⟩ := exists_first_issue (js "127.0.0.2")
    (js "127.0.0.2") (by decide)
  have hphysical : (physical homeTable).isEmpty = false := by decide
  refine ⟨cert, files', hissue, hpublished, by simpa using hphysical, fun hwell => ?_⟩
  exact absurd (hwell.routable _ hpublished) (by decide)

end LocalCast.Server
