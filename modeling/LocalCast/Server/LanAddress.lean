import LocalCast.Foundations.JsNumber

/-!
`net/lanAddress.ts` and the names of `net/selfSigned.ts`: which of the machine's addresses are
published, and which names the certificate of the local network carries.

* `lanCandidates`, `lanIpv4Addresses`: the addresses of the interface table, best first.
* `defaultSanHosts`, `publishHostFrom`: the names of the certificate, and the one that devices
  are told.
* `hosts_of_addresses`: the names depend on the list of addresses and on nothing else of the
  table.
-/

namespace LocalCast.Server

open JsString JsNumber

/-! ### Addresses and names -/

def isAlnum (c : CodeUnit) : Bool := isDigit c || (97 ≤ c && c ≤ 122)

/-- `OCTET`. -/
def isStrictOctet (p : JsString) : Bool :=
  !p.isEmpty && p.all isDigit && (p.length = 1 || p.head? ≠ some 48) && digitsValue p ≤ 255

/-- `IPV4`. -/
def isIpv4 (host : JsString) : Bool :=
  let octets := splitOn (fun c => c = 46) host
  octets.length = 4 && octets.all isStrictOctet

/-- One part of `DNS_NAME`. -/
def isLabel (p : JsString) : Bool :=
  p.all (fun c => isAlnum c || c = 45) && p.head?.any isAlnum && p.getLast?.any isAlnum

/-- `DNS_NAME`. -/
def isDnsName (host : JsString) : Bool := (splitOn (fun c => c = 46) host).all isLabel

/-! ### The interface table -/

inductive AddressFamily where
  | ipv4 | ipv6
deriving DecidableEq

/-- An address of `os.networkInterfaces()`; an IPv4 address is written as four numbers. -/
structure InterfaceInfo where
  address : JsString
  family : AddressFamily
  internal : Bool
  mac : JsString
  plain : family = .ipv4 → isIpv4 address = true

/-- The adapters with their addresses, in the order of the table. -/
abbrev Interfaces := List (JsString × List InterfaceInfo)

/-! ### Classification -/

/-- `LanCandidate`. -/
structure LanCandidate where
  address : JsString
  adapter : JsString
  tunnel : Bool
  note : String
deriving DecidableEq

/-- The alternatives of `TUNNEL_NAME`. -/
def tunnelNames : List JsString :=
  ["vpn", "tailscale", "zerotier", "hamachi", "radmin", "wireguard", "wintun", "openvpn",
    "softether", "nordlynx", "proton", "mullvad", "expressvpn", "surfshark", "windscribe",
    "anyconnect", "forticlient", "globalprotect", "zscaler", "netbird", "twingate", "sonicwall",
    "checkpoint", "pulse secure", "xray", "v2ray", "clash", "singbox", "sing-box", "hiddify",
    "outline", "warp", "vethernet", "hyper-v", "vmware", "vmnet", "virtualbox", "vbox",
    "parallels", "docker", "wsl", "npcap", "teredo", "isatap", "6to4", "bluetooth", "pdanet",
    "loopback"].map js

/-- `TUNNEL_NAME`: one of the names, in either case, anywhere in the adapter's. -/
def hasTunnelName (adapter : JsString) : Bool :=
  (lower adapter).tails.any fun rest => tunnelNames.any fun name => name.isPrefixOf rest

def tunnelTokens : List JsString := ["tun", "tap", "ppp", "wg", "utun", "veth", "br"].map js

/-- A token with its number, not followed by a letter or a digit. -/
def startsToken (rest : JsString) : Bool :=
  tunnelTokens.any fun token =>
    token.isPrefixOf rest && (((rest.drop token.length).dropWhile isDigit).head?.all fun c =>
      !isAlnum c)

/-- `TUNNEL_TOKEN`: a token at the start of the name or behind what is no letter or digit. -/
def hasTunnelToken (adapter : JsString) : Bool :=
  startsToken (lower adapter) || (lower adapter).tails.any fun rest =>
    match rest with
    | c :: rest => !isAlnum c && startsToken rest
    | [] => false

/-- `NO_HARDWARE_ADDRESS`. -/
def noHardwareAddress (mac : JsString) : Bool :=
  match mac with
  | [48, 48, a, 48, 48, b, 48, 48, c, 48, 48, d, 48, 48, e, 48, 48] =>
      [a, b, c, d, e].all fun sep => sep = 58 || sep = 45
  | _ => false

/-- `100.64.0.0/10`. -/
def isCarrierGradeNat (ip : JsString) : Bool :=
  match splitOn (fun c => c = 46) ip with
  | first :: second :: _ :: _ =>
      first = js "100" && second.all isDigit && 64 ≤ digitsValue second &&
        digitsValue second ≤ 127 && (second.length = 2 || second.length = 3) &&
        second.head? ≠ some 48
  | _ => false

/-- The second number of an address under `172.` that is private. -/
def isPrivate172 (ip : JsString) : Bool :=
  match splitOn (fun c => c = 46) ip with
  | first :: second :: _ :: _ =>
      first = js "172" && second.length = 2 && second.all isDigit && 16 ≤ digitsValue second &&
        digitsValue second ≤ 31
  | _ => false

def rangeRank (ip : JsString) : ℕ :=
  if (js "192.168.").isPrefixOf ip then 0
  else if isPrivate172 ip then 1
  else if (js "10.").isPrefixOf ip then 2
  else 3

def classify (adapter address mac : JsString) : Bool × String :=
  if hasTunnelName adapter || hasTunnelToken adapter then
    (true, "virtual or tunnel adapter, by name")
  else if noHardwareAddress mac then (true, "no hardware address")
  else if isCarrierGradeNat address then (true, "carrier-grade NAT range")
  else (false, "local network adapter")

/-- Real adapters before tunnels, then by range. -/
def LanCandidate.before (a b : LanCandidate) : Bool :=
  if a.tunnel = b.tunnel then rangeRank a.address ≤ rangeRank b.address else !a.tunnel

def lanCandidates (interfaces : Interfaces) : List LanCandidate :=
  let found := interfaces.flatMap fun (adapter, addresses) =>
    (addresses.filter fun a =>
      a.family = .ipv4 && !a.internal && !(js "169.254.").isPrefixOf a.address).map fun a =>
        let (tunnel, note) := classify adapter a.address a.mac
        ⟨a.address, adapter, tunnel, note⟩
  -- both sorts are stable
  found.insertionSort fun a b => a.before b = true

def lanIpv4Addresses (interfaces : Interfaces) : List JsString :=
  let all := lanCandidates interfaces
  let real := all.filter fun candidate => !candidate.tunnel
  (if real.length > 0 then real else all).map LanCandidate.address

/-! ### The names of the certificate -/

/-- What is configured for the names, and the machine's own. -/
structure SanOptions where
  extraHosts : List JsString
  hostname : JsString
  toLowerCase : JsString → JsString

def defaultSanHosts (options : SanOptions) (interfaces : Interfaces) : List JsString :=
  let extra := (options.extraHosts.map fun host => options.toLowerCase (trim host)).filter
    fun host => !host.isEmpty
  let hostname := options.toLowerCase (trim options.hostname)
  let names := if isDnsName hostname then
      hostname :: (if hostname.contains 46 then [] else [hostname ++ js ".local"])
    else []
  let hosts := [js "localhost", js "127.0.0.1"] ++ extra ++ names ++ lanIpv4Addresses interfaces
  hosts.eraseDups.filter fun host => isIpv4 host || isDnsName host

def publishHostFrom (hosts : List JsString) : Option JsString :=
  match hosts.find? fun host => isIpv4 host && host ≠ js "127.0.0.1" with
  | some preferred => some preferred
  | none => hosts.find? fun host => !isIpv4 host && host ≠ js "localhost"

lemma publishHostFrom_mem {hosts : List JsString} {host : JsString}
    (h : publishHostFrom hosts = some host) : host ∈ hosts := by
  rw [publishHostFrom] at h
  split at h
  case h_1 preferred hfind =>
    cases h
    exact List.mem_of_find?_eq_some hfind
  case h_2 => exact List.mem_of_find?_eq_some h

/-- The names depend on the addresses of the table and on nothing else of it. -/
lemma hosts_of_addresses (options : SanOptions) {interfaces interfaces' : Interfaces}
    (h : lanIpv4Addresses interfaces = lanIpv4Addresses interfaces') :
    defaultSanHosts options interfaces = defaultSanHosts options interfaces' := by
  rw [defaultSanHosts, defaultSanHosts, h]

/-! ### The signature -/

/-- `#signatureNow`: the addresses as one text. -/
def signatureOf (interfaces : Interfaces) : JsString := join [44] (lanIpv4Addresses interfaces)

/-- An octet is digits, and at least one. -/
lemma of_isStrictOctet {p : JsString} (h : isStrictOctet p = true) :
    p ≠ [] ∧ ∀ c ∈ p, isDigit c = true := by
  simp only [isStrictOctet, Bool.and_eq_true, Bool.not_eq_true', List.isEmpty_eq_false_iff,
    List.all_eq_true] at h
  exact ⟨h.1.1.1, h.1.1.2⟩

/-- An IPv4 address has no comma, and something in it. -/
lemma of_isIpv4 {host : JsString} (h : isIpv4 host = true) :
    host ≠ [] ∧ ∀ c ∈ host, c ≠ 44 := by
  simp only [isIpv4, Bool.and_eq_true, decide_eq_true_eq, List.all_eq_true] at h
  constructor
  · rintro rfl
    exact absurd h.1 (by decide)
  · rintro c hc rfl
    have hpiece : ∃ p ∈ splitOn (fun c => c = 46) host, (44 : CodeUnit) ∈ p :=
      exists_mem_splitOn hc (by decide)
    obtain ⟨p, hp, hcp⟩ := hpiece
    exact absurd ((of_isStrictOctet (h.2 p hp)).2 44 hcp) (by decide)

/-- The units of a name or an address. -/
lemma unit_of_host {host : JsString} (h : isIpv4 host = true ∨ isDnsName host = true) :
    ∀ c ∈ host, isAlnum c = true ∨ c = 45 ∨ c = 46 := by
  intro c hc
  by_cases hdot : c = 46
  · exact .inr (.inr hdot)
  · obtain ⟨p, hp, hcp⟩ := exists_mem_splitOn_unit hc hdot
    rcases h with h | h
    · rw [isIpv4, Bool.and_eq_true, List.all_eq_true] at h
      have hdigit := (of_isStrictOctet (h.2 p hp)).2 c hcp
      exact .inl (by rw [isAlnum, hdigit, Bool.true_or])
    · rw [isDnsName, List.all_eq_true] at h
      have hlabel := h p hp
      rw [isLabel, Bool.and_eq_true, Bool.and_eq_true, List.all_eq_true] at hlabel
      have hc := hlabel.1.1 c hcp
      rw [Bool.or_eq_true, decide_eq_true_eq] at hc
      exact hc.elim .inl fun h => .inr (.inl h)

/-- They are ASCII. -/
lemma unit_lt {c : CodeUnit} (h : isAlnum c = true ∨ c = 45 ∨ c = 46) : c.toNat < 128 := by
  rcases h with h | rfl | rfl
  · simp only [isAlnum, isDigit, Bool.or_eq_true, Bool.and_eq_true, decide_eq_true_eq,
      UInt16.le_iff_toNat_le, UInt16.reduceToNat] at h
    omega
  · decide
  · decide

/-- What is published are addresses of the table. -/
lemma isIpv4_of_mem {interfaces : Interfaces} {address : JsString}
    (h : address ∈ lanIpv4Addresses interfaces) : isIpv4 address = true := by
  have hcandidate : ∀ c ∈ lanCandidates interfaces, isIpv4 c.address = true := by
    intro c hc
    rw [lanCandidates, List.mem_insertionSort, List.mem_flatMap] at hc
    obtain ⟨⟨adapter, addresses⟩, -, hc⟩ := hc
    obtain ⟨info, hinfo, rfl⟩ := List.mem_map.mp hc
    have hfamily := (List.mem_filter.mp hinfo).2
    simp only [Bool.and_eq_true, decide_eq_true_eq] at hfamily
    exact info.plain hfamily.1.1
  obtain ⟨c, hc, rfl⟩ := List.mem_map.mp h
  split_ifs at hc
  · exact hcandidate c (List.mem_filter.mp hc).1
  · exact hcandidate c hc

/-- The signature tells two lists of addresses apart. -/
lemma addresses_of_signature {interfaces interfaces' : Interfaces}
    (h : signatureOf interfaces = signatureOf interfaces') :
    lanIpv4Addresses interfaces = lanIpv4Addresses interfaces' := by
  have hback (table : Interfaces) : segments (fun c => c = 44) (signatureOf table) =
      lanIpv4Addresses table :=
    segments_join 44 (by decide) _ fun _ hp => by
      simpa using of_isIpv4 (isIpv4_of_mem hp)
  rw [← hback interfaces, h, hback]

end LocalCast.Server
