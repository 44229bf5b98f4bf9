import WlabStation.Network.Reconnect
import WlabStation.Settings.Startup

/-! The Wi-Fi credentials on their way from the shell through the flash to the
connect requests, the first one and each one of the work item. -/
namespace WlabStation.Network
open Settings

/-- The arguments that `main` gives to `wifi_net_init`. They are undefined when
the object ends before one of the two strings does. -/
def mainNetInit (wificfg : List UInt8) : Option (List UInt8 × Option (List UInt8)) := do
  let ssid ← cString wificfg
  let passwd ← cString (wificfg.drop CONFIG_BUFF_MAX_STRING_LEN)
  return (ssid, some passwd)

/-- Nobody but `main` calls `wifi_net_init`. -/
def CalledByMain (wificfg : List UInt8) : WifiAct → Prop
  | .netInit ssid passwd _ => mainNetInit wificfg = some (ssid, passwd)
  | _ => True

/-- A request with exactly these credentials, without PSK if there is no password. -/
structure Carries (ssid : List UInt8) (pass : Option (List UInt8)) (p : WifiConnectReqParams) :
    Prop where
  name : p.ssid = ssid
  nameLength : p.ssidLength = ssid.length
  psk : ∀ psk, pass = some psk → p.security = .psk ∧ p.psk = psk ∧ p.pskLength = psk.length
  openNet : pass = none → p.security ≠ .psk

/-- Every connect request of every run after this start carries the credentials. -/
structure CredentialsKept (wificfg ssid : List UInt8) (pass : Option (List UInt8)) : Prop where
  defined : (mainNetInit wificfg).isSome
  requests : ∀ acts h t, (∀ a ∈ acts, CalledByMain wificfg a) → wifi.Runs wifiBoot acts h t →
    ∀ p ret, .connectRequest p ret ∈ h → Carries ssid pass p

theorem mainNetInit_eq_some {wificfg ssid : List UInt8} {pass : Option (List UInt8)} :
    mainNetInit wificfg = some (ssid, pass) ↔ cString wificfg = some ssid ∧
      ∃ psk, cString (wificfg.drop CONFIG_BUFF_MAX_STRING_LEN) = some psk ∧ pass = some psk := by
  cases hs : cString wificfg with
  | none => simp [mainNetInit, hs]
  | some s =>
    cases hp : cString (wificfg.drop CONFIG_BUFF_MAX_STRING_LEN) with
    | none => simp [mainNetInit, hs, hp]
    | some psk => simp [mainNetInit, hs, hp, eq_comm]

/-- Before `wifi_net_init` is called nothing is requested. -/
theorem wifi_start_step {s t : Wifi} {a : WifiAct} {es : List WifiEvent} (hp : s.phase = .start)
    (hs : wifi.step s a = some (es, t)) :
    (es = [] ∧ t.phase = .start ∧ t.wifiInit = s.wifiInit) ∨
      ∃ ssid passwd ret, a = .netInit ssid passwd ret := by
  cases wifi_step_cases hs with
  | register => exact .inl ⟨rfl, hp, rfl⟩
  | netInit ssid passwd ret => exact .inr ⟨ssid, passwd, ret, rfl⟩
  | firstConnTaken sem => simp [wifi, hp] at hs
  | reboot => simp [wifi, hp] at hs
  | nextSecond secCnt => simp [wifi, hp] at hs
  | connectResult status hl => exact absurd hp (listening_phase hl)
  | disconnectResult status hl => exact absurd hp (listening_phase hl)
  | ipv4AddrAdd dhcp hl => exact absurd hp (listening_phase hl)
  | timerExpired hl => exact absurd hp (listening_phase hl)
  | workStart hl => exact absurd hp (listening_phase hl)
  | requestResult ret hl => exact absurd hp (listening_phase hl)

/-- Afterwards nothing assigns `WifiInit`, and every request is made with it. -/
theorem wifi_started_step {s t : Wifi} {a : WifiAct} {es : List WifiEvent} (hp : s.phase ≠ .start)
    (hs : wifi.step s a = some (es, t)) :
    t.phase ≠ .start ∧ t.wifiInit = s.wifiInit ∧
      ∀ p ret, .connectRequest p ret ∈ es → p = s.wifiInit := by
  cases wifi_step_cases hs with
  | register => exact ⟨hp, rfl, by simp⟩
  | netInit ssid passwd ret hstart => exact absurd hstart hp
  | firstConnTaken sem => exact ⟨by simp, rfl, by simp⟩
  | reboot => exact ⟨by simp, rfl, by simp⟩
  | nextSecond secCnt => exact ⟨by simp, rfl, by simp⟩
  | connectResult status hl =>
    unfold handleWifiConnectResult
    split_ifs
    · exact ⟨hp, rfl, by simp⟩
    · exact ⟨hp, rfl, by simp⟩
  | disconnectResult status hl =>
    refine ⟨hp, rfl, ?_⟩
    intro p ret hmem
    simp only [handleWifiDisconnectResult] at hmem
    split_ifs at hmem
    · simp at hmem
    · simp at hmem
  | ipv4AddrAdd dhcp hl => exact ⟨hp, rfl, by simp⟩
  | timerExpired hl => exact ⟨hp, rfl, by simp⟩
  | workStart hl => exact ⟨hp, rfl, by simp⟩
  | requestResult ret hl =>
    rw [request_eq]
    refine ⟨hp, rfl, ?_⟩
    intro p ret' hmem
    have heq := List.mem_singleton.mp hmem
    cases heq
    rfl

/-- The requests and `WifiInit`, which is filled in when `main` has called `wifi_net_init`. -/
structure Requested (params : WifiConnectReqParams) (h : List WifiEvent) (s : Wifi) : Prop where
  sent : ∀ p ret, .connectRequest p ret ∈ h → p = params
  fresh : s.phase = .start → s.wifiInit = wifiBoot.wifiInit
  filled : s.phase ≠ .start → s.wifiInit = params

theorem Requested.step {wificfg ssid : List UInt8} {passwd : Option (List UInt8)}
    (hmain : mainNetInit wificfg = some (ssid, passwd)) {h es : List WifiEvent} {s t : Wifi}
    {a : WifiAct} (hi : Requested (wifiInitParams wifiBoot.wifiInit ssid passwd) h s)
    (ha : CalledByMain wificfg a) (hs : wifi.step s a = some (es, t)) :
    Requested (wifiInitParams wifiBoot.wifiInit ssid passwd) (h ++ es) t := by
  by_cases hp : s.phase = .start
  · rcases wifi_start_step hp hs with ⟨rfl, htp, hti⟩ | ⟨ssid', passwd', ret, rfl⟩
    · constructor
      case sent =>
        rw [List.append_nil]
        exact hi.sent
      case fresh => exact fun _ => hti.trans (hi.fresh hp)
      case filled => exact fun hne => absurd htp hne
    · obtain ⟨rfl, rfl⟩ := Prod.mk.inj (Option.some.inj (ha.symm.trans hmain))
      have hinit := hi.fresh hp
      cases wifi_step_cases hs
      rw [request_eq, hinit]
      constructor
      case sent =>
        intro p ret' hmem
        rcases List.mem_append.mp hmem with hold | hnew
        · exact hi.sent p ret' hold
        · rcases List.mem_pair.mp hnew with heq | heq
          · cases heq
            rfl
          · cases heq
      case fresh => simp
      case filled => exact fun _ => rfl
  · obtain ⟨htp, hti, hes⟩ := wifi_started_step hp hs
    have hinit := hi.filled hp
    constructor
    case sent =>
      intro p ret hmem
      rcases List.mem_append.mp hmem with hold | hnew
      · exact hi.sent p ret hold
      · exact (hes p ret hnew).trans hinit
    case fresh => exact fun hstart => absurd hstart htp
    case filled => exact fun _ => hti.trans hinit

/-- In every run all requests are equal. -/
theorem requested_run {wificfg ssid : List UInt8} {passwd : Option (List UInt8)}
    (hmain : mainNetInit wificfg = some (ssid, passwd)) {acts : List WifiAct}
    {h : List WifiEvent} {t : Wifi} (hacts : ∀ a ∈ acts, CalledByMain wificfg a)
    (hr : wifi.Runs wifiBoot acts h t) :
    Requested (wifiInitParams wifiBoot.wifiInit ssid passwd) h t := by
  apply hr.invariant_of_eachStep _ _ (Machine.eachStep_of_mem wifiBoot hacts)
  · constructor
    case sent => simp
    case fresh => exact fun _ => rfl
    case filled => exact fun hne => absurd rfl hne
  · exact fun h s a es t hi ha hs => hi.step hmain ha hs

/-- The assignments of `wifi_net_init` carry its arguments and no others. -/
theorem carries_init_iff {ssid ssid' : List UInt8} {pass passwd : Option (List UInt8)} :
    Carries ssid pass (wifiInitParams wifiBoot.wifiInit ssid' passwd) ↔
      ssid' = ssid ∧ passwd = pass := by
  constructor
  · intro hc
    cases passwd with
    | none =>
      cases pass with
      | none => exact ⟨hc.name, rfl⟩
      | some psk => cases (hc.psk psk rfl).1
    | some psk' =>
      cases pass with
      | none => exact absurd rfl (hc.openNet rfl)
      | some psk => exact ⟨hc.name, congrArg some (hc.psk psk rfl).2.1⟩
  · rintro ⟨rfl, rfl⟩
    cases passwd with
    | none =>
      constructor
      case name => rfl
      case nameLength => rfl
      case psk =>
        intro psk hpsk
        cases hpsk
      case openNet =>
        intro _ hsecurity
        cases hsecurity
    | some psk =>
      constructor
      case name => rfl
      case nameLength => rfl
      case psk =>
        intro psk' hpsk
        cases hpsk
        exact ⟨rfl, rfl, rfl⟩
      case openNet =>
        intro hnone
        cases hnone

/-- The credentials are kept exactly when `main` passes them. -/
theorem credentialsKept_iff_passed {wificfg ssid : List UInt8} {pass : Option (List UInt8)} :
    CredentialsKept wificfg ssid pass ↔ mainNetInit wificfg = some (ssid, pass) := by
  constructor
  · intro hkept
    obtain ⟨⟨ssid', passwd⟩, hmain⟩ := Option.isSome_iff_exists.mp hkept.defined
    have hfirst : wifi.Runs wifiBoot [.netInit ssid' passwd 0]
        [.connectRequest (wifiInitParams wifiBoot.wifiInit ssid' passwd) 0, .wdgFeed] _ := rfl
    have hcarries := hkept.requests _ _ _ (by simpa [CalledByMain] using hmain) hfirst _ _
      List.mem_cons_self
    obtain ⟨rfl, rfl⟩ := carries_init_iff.mp hcarries
    exact hmain
  · intro hmain
    constructor
    case defined => exact Option.isSome_of_eq_some hmain
    case requests =>
      intro acts h t hacts hr p ret hmem
      rw [(requested_run hmain hacts hr).sent p ret hmem]
      exact carries_init_iff.mpr ⟨rfl, rfl⟩

/-- What the two fields of a stored object deliver. A name that fills its field
continues in the password. -/
theorem mainNetInit_copies_iff {ssid psk : List UInt8} (hssid : 0 ∉ ssid) (hpsk : 0 ∉ psk)
    {pass : Option (List UInt8)} :
    mainNetInit (strncpy ssid CONFIG_BUFF_MAX_STRING_LEN ++
        strncpy psk CONFIG_BUFF_MAX_STRING_LEN) = some (ssid, pass) ↔
      pass = some psk ∧ psk.length < CONFIG_BUFF_MAX_STRING_LEN ∧
        (ssid.length < CONFIG_BUFF_MAX_STRING_LEN ∨
          ssid.drop CONFIG_BUFF_MAX_STRING_LEN = psk) := by
  have hpass : cString ((strncpy ssid CONFIG_BUFF_MAX_STRING_LEN ++
      strncpy psk CONFIG_BUFF_MAX_STRING_LEN).drop CONFIG_BUFF_MAX_STRING_LEN) =
        if psk.length < CONFIG_BUFF_MAX_STRING_LEN then some psk else none := by
    rw [List.drop_left' (strncpy_length _ _), cString_strncpy hpsk]
  have hname := cString_strncpy_append hssid CONFIG_BUFF_MAX_STRING_LEN
    (strncpy psk CONFIG_BUFF_MAX_STRING_LEN)
  rw [cString_strncpy hpsk] at hname
  rw [mainNetInit_eq_some, hpass, hname]
  constructor
  · rintro ⟨hfull, psk', hsome, rfl⟩
    obtain ⟨hlen, heq⟩ := Option.ite_none_right_eq_some.mp hsome
    obtain rfl := Option.some.inj heq
    refine ⟨rfl, hlen, ?_⟩
    split_ifs at hfull with hshort
    · exact .inl hshort
    · have hcat := Option.some.inj hfull
      exact .inr (List.append_cancel_left (hcat.trans (List.take_append_drop _ ssid).symm)).symm
  · rintro ⟨rfl, hlen, hshort⟩
    constructor
    · split_ifs with hlt
      · rfl
      · rw [Option.map_some, ← hshort.resolve_left hlt, List.take_append_drop]
    · exact ⟨psk, if_pos hlen, rfl⟩

/-- The default has two empty strings. -/
theorem mainNetInit_default :
    mainNetInit (List.replicate wifiConfigLen 0) = some ([], some []) := by
  have hcopies : List.replicate wifiConfigLen (0 : UInt8) =
      strncpy [] CONFIG_BUFF_MAX_STRING_LEN ++ strncpy [] CONFIG_BUFF_MAX_STRING_LEN := rfl
  rw [hcopies, mainNetInit_copies_iff List.not_mem_nil List.not_mem_nil]
  exact ⟨rfl, by decide, .inl (by decide)⟩

theorem wifiConfigImage_of_args (cmd ssid : List UInt8) (pass : Option (List UInt8)) :
    wifiConfigImage (cmd :: ssid :: pass.toList) = strncpy ssid CONFIG_BUFF_MAX_STRING_LEN ++
      strncpy (pass.getD []) CONFIG_BUFF_MAX_STRING_LEN := by
  cases pass with
  | none => rfl
  | some psk => rfl

/-- After every run of the settings, from any flash on. -/
theorem credentials_kept_iff {fs fs' : NvsFs} {uses : List (SettingUse wificonf.setting)}
    {h : List (List (List UInt8))} (hr : wificonf.store.Runs fs uses h fs')
    {cmd ssid : List UInt8} {pass : Option (List UInt8)}
    (hlast : h.getLast? = some (cmd :: ssid :: pass.toList)) (hssid : 0 ∉ ssid)
    (hpass : ∀ psk, pass = some psk → 0 ∉ psk) (m : Memory) (wificfg mqttcfg : ℕ)
    (f : StartFaults) :
    CredentialsKept (mainNetConfig fs' m wificfg mqttcfg f).wificfg ssid pass ↔
      ∃ psk, pass = some psk ∧ psk.length < CONFIG_BUFF_MAX_STRING_LEN ∧
        (ssid.length < CONFIG_BUFF_MAX_STRING_LEN ∨
          ssid.drop CONFIG_BUFF_MAX_STRING_LEN = psk) ∧
        (wificonf.Delivers fs' (cmd :: ssid :: pass.toList) f.wifiRead ∨ ssid = [] ∧ psk = []) := by
  rw [mainNetConfig_wificfg (SettingCommand.store_holds hr) hlast, credentialsKept_iff_passed]
  split_ifs with hdelivers
  · have hzero : 0 ∉ pass.getD [] := by
      cases pass with
      | none => exact List.not_mem_nil
      | some psk => exact hpass psk rfl
    rw [wifiConfigImage_of_args, mainNetInit_copies_iff hssid hzero]
    constructor
    · rintro ⟨hsome, hlen, hname⟩
      exact ⟨_, hsome, hlen, hname, .inl hdelivers⟩
    · rintro ⟨psk, rfl, hlen, hname, -⟩
      exact ⟨rfl, hlen, hname⟩
  · rw [mainNetInit_default]
    constructor
    · intro heq
      obtain ⟨rfl, rfl⟩ := Prod.mk.inj (Option.some.inj heq)
      exact ⟨[], rfl, by decide, .inl (by decide), .inr ⟨rfl, rfl⟩⟩
    · rintro ⟨psk, rfl, -, -, hstored | ⟨rfl, rfl⟩⟩
      · exact absurd hstored hdelivers
      · rfl

/-- The first credentials of a station are accepted. -/
theorem wificonf_first_run (cmd ssid : List UInt8) (pass : Option (List UInt8)) :
    wificonf.store.Runs (fun _ => none)
      [.command (cmd :: ssid :: pass.toList) (fun _ => 0) 0 none] [cmd :: ssid :: pass.toList]
      (Function.update (fun _ => none) NVS_ID_WIFI_CONFIG
        (some (wifiConfigImage (cmd :: ssid :: pass.toList)))) := by
  have hargc : 2 ≤ (cmd :: ssid :: pass.toList).length ∧
      (cmd :: ssid :: pass.toList).length ≤ 3 := by
    cases pass with
    | none => exact ⟨by simp, by simp⟩
    | some psk => exact ⟨by simp, by simp⟩
  have hok :
      (cmdWifiConfig (fun _ => none) (cmd :: ssid :: pass.toList) (fun _ => 0) 0 none).ok := by
    simp only [cmdWifiConfig, if_pos hargc]
    exact shellSet_ok .wifiConfig rfl _ _ _
  exact wificonf.runs_command hok

/-- A protected network. -/
theorem protected_network_kept :
    let argv := [textBytes "wificonf", textBytes "wifi_1234", textBytes "qwerty1234"]
    let fs := Function.update (fun _ => none) NVS_ID_WIFI_CONFIG (some (wifiConfigImage argv))
    wificonf.store.Runs (fun _ => none) [.command argv (fun _ => 0) 0 none] [argv] fs ∧
      CredentialsKept (mainNetConfig fs (fun _ => 0) 0 96 .none).wificfg
        (textBytes "wifi_1234") (some (textBytes "qwerty1234")) := by
  intro argv fs
  have hrun := wificonf_first_run (textBytes "wificonf") (textBytes "wifi_1234")
    (some (textBytes "qwerty1234"))
  have hpass : ∀ psk, some (textBytes "qwerty1234") = some psk → 0 ∉ psk := by
    intro psk hpsk
    rw [← Option.some.inj hpsk]
    decide
  constructor
  · exact hrun
  · refine (credentials_kept_iff hrun rfl (by decide) hpass _ _ _ _).mpr
      ⟨_, rfl, by decide, .inl (by decide), .inl ?_⟩
    exact ⟨Function.update_self _ _ _, rfl⟩

/-- The documented form for an open network. -/
theorem open_network_requests_psk :
    let argv := [textBytes "wificonf", textBytes "wifi_1234"]
    let fs := Function.update (fun _ => none) NVS_ID_WIFI_CONFIG (some (wifiConfigImage argv))
    wificonf.store.Runs (fun _ => none) [.command argv (fun _ => 0) 0 none] [argv] fs ∧
      ¬ CredentialsKept (mainNetConfig fs (fun _ => 0) 0 96 .none).wificfg
        (textBytes "wifi_1234") none := by
  intro argv fs
  have hrun := wificonf_first_run (textBytes "wificonf") (textBytes "wifi_1234") none
  constructor
  · exact hrun
  · intro hkept
    obtain ⟨-, psk, -, hnone⟩ := mainNetInit_eq_some.mp (credentialsKept_iff_passed.mp hkept)
    cases hnone

end WlabStation.Network
