import WireGui.Nft.Syntax
import WireGui.Lib.SetOrder
import WireGui.Models
import Mathlib.Data.List.Sort

/-!
# `services/firewall.py`

The batches that the service writes, line by line as it writes them, and what comes of them.

* Each user with devices or rules has a chain named after the first twelve digits of the user's id;
  the chain `forward` jumps to it from the addresses of the user's devices.
* `rebuildAllRules` writes the chains of the given entries and the whole of `forward`, and removes
  every other `user_` chain.
* nft itself is a `Nft.FrontEnd` for the lines and the tables of `Nft.Table` for their effect.
-/

namespace WireGui

def tableName : String := "wiregui"

/-- The table `inet wiregui`. -/
abbrev Table := Nft.Table String Nft.Match

abbrev FrontEnd := Nft.FrontEnd tableName

abbrev NftRule := Nft.Rule String Nft.Match

/-- Python's truth of an optional string: there and not empty. -/
def truthy (s : Option String) : Option String := s.filter (· ≠ "")

/-! ### Entries -/

structure DeviceEntry where
  ipv4 : Option String
  ipv6 : Option String
  allowedSubnets : List String
  deriving DecidableEq

structure RuleEntry where
  destination : String
  action : String
  portType : Option String
  portRange : Option String
  priority : Option ℤ
  deriving DecidableEq

structure Entry where
  userId : String
  devices : List DeviceEntry
  rules : List RuleEntry
  deriving DecidableEq

/-! ### Lines -/

/-- `_user_chain_name`: the first twelve characters of the id, hyphens left out. -/
def userChainName (userId : String) : String :=
  let short := String.ofList ((userId.toList.filter (· ≠ '-')).take 12)
  s!"user_{short}"

/-- `":" in s` tells the family of an address or a network. -/
def family (s : String) : Ip.Family := if ':' ∈ s.toList then .v6 else .v4

/-- `_build_rule_expr`. -/
def buildRuleExpr (destination action : String) (portType portRange : Option String) : String :=
  let addrMatch :=
    if ':' ∈ destination.toList then s!"ip6 daddr {destination}" else s!"ip daddr {destination}"
  match truthy portType, truthy portRange with
  | some pt, some pr => " ".intercalate [addrMatch, s!"{pt} dport {pr}", action]
  | _, _ => " ".intercalate [addrMatch, action]

def addChainLine (chain : String) : String := s!"add chain inet {tableName} {chain}"
def flushChainLine (chain : String) : String := s!"flush chain inet {tableName} {chain}"
def deleteChainLine (chain : String) : String := s!"delete chain inet {tableName} {chain}"

def addRuleLine (chain expr : String) : String := s!"add rule inet {tableName} {chain} {expr}"

/-- The line of one rule of an entry. -/
def RuleEntry.line (chain : String) (r : RuleEntry) : String :=
  addRuleLine chain (buildRuleExpr r.destination r.action r.portType r.portRange)

/-- The jump to `chain` for packets from `src`. -/
def jumpLine (chain : String) : Ip.Family × String → String
  | (.v4, src) => s!"add rule inet {tableName} forward ip saddr {src} jump {chain}"
  | (.v6, src) => s!"add rule inet {tableName} forward ip6 saddr {src} jump {chain}"

/-- Where the packets of a device come from: its tunnel addresses, then the subnets it relays. -/
def DeviceEntry.sources (d : DeviceEntry) : List (Ip.Family × String) :=
  ((truthy d.ipv4).toList.map fun a => (.v4, a)) ++ ((truthy d.ipv6).toList.map fun a => (.v6, a)) ++
    d.allowedSubnets.map fun s => (family s, s)

/-- The jumps of a device, in the loop of `rebuild_all_rules` as in `add_device_jump_rule`. -/
def DeviceEntry.lines (chain : String) (d : DeviceEntry) : List String :=
  d.sources.map (jumpLine chain)

/-- `sorted(entry["rules"], key=lambda r: r.get("priority", 100))`, which is stable. -/
def Entry.orderedRules (e : Entry) : List RuleEntry :=
  e.rules.insertionSort fun r s => r.priority.getD 100 ≤ s.priority.getD 100

def Entry.chain (e : Entry) : String := userChainName e.userId

def Entry.ruleLines (e : Entry) : List String := e.orderedRules.map (RuleEntry.line e.chain)

/-- The chain of an entry, made or emptied, and its rules. -/
def Entry.chainLines (e : Entry) : List String :=
  [addChainLine e.chain, flushChainLine e.chain] ++ e.ruleLines

/-- The jumps of an entry's devices. -/
def Entry.jumpLines (e : Entry) : List String := e.devices.flatMap (DeviceEntry.lines e.chain)

/-- The batch of `rebuild_all_rules`, with the chains it found to be orphaned. -/
def rebuildCommands (entries : List Entry) (orphaned : List String) : List String :=
  entries.flatMap Entry.chainLines ++ [flushChainLine "forward"] ++
    entries.flatMap Entry.jumpLines ++
    orphaned.flatMap fun chain => [flushChainLine chain, deleteChainLine chain]

/-! ### What is done with them -/

/-- `_nft_batch`: the table afterwards, or the error it raises. -/
def nftBatch (nft : FrontEnd) (commands : List String) (t : Table) : Except String Table :=
  match nft.apply commands t with
  | some t' => .ok t'
  | none => .error s!"nft batch failed: {nft.stderr commands t}"

/-- An `except RuntimeError` that lets nothing through. -/
def orKeep (t : Table) : Except String Table → Table
  | .ok t' => t'
  | .error _ => t

/-- An `except RuntimeError` that only lets through what is not about an existing object. -/
def ignoreExists (t : Table) : Except String Table → Except String Table
  | .ok t' => .ok t'
  | .error e => if "File exists".toList <:+: e.toList then .ok t else .error e

def setupBaseTables (nft : FrontEnd) (t : Table) : Except String Table :=
  ignoreExists t (nftBatch nft
    [s!"add table inet {tableName}",
     s!"add chain inet {tableName} forward " ++
       "\x7b type filter hook forward priority 0; policy accept; \x7d",
     s!"add chain inet {tableName} postrouting " ++
       "\x7b type nat hook postrouting priority 100; policy accept; \x7d"] t)

/-- `setup_masquerade`, with the interface of the settings. -/
def setupMasquerade (nft : FrontEnd) (settings : Settings) (t : Table) : Table :=
  let iface := settings.wgInterface
  orKeep t (nftBatch nft
    [flushChainLine "postrouting",
     addRuleLine "postrouting"
       s!"ip saddr {settings.wgIpv4Network} oifname != \"{iface}\" masquerade",
     addRuleLine "postrouting"
       s!"ip6 saddr {settings.wgIpv6Network} oifname != \"{iface}\" masquerade"] t)

def addUserChain (nft : FrontEnd) (userId : String) (t : Table) : Except String Table :=
  ignoreExists t (nftBatch nft [addChainLine (userChainName userId)] t)

def addDeviceJumpRule (nft : FrontEnd) (userId : String) (device : DeviceEntry) (t : Table) :
    Except String Table :=
  let commands := device.lines (userChainName userId)
  if commands = [] then .ok t else nftBatch nft commands t

/-- `_list_user_chains`: the chains of the table whose name starts with `user_`. -/
def listUserChains (t : Table) : Finset String :=
  t.chains.keys.filter fun c => "user_".toList <+: c.toList

/-- The user chains that belong to no entry. -/
def orphanedChains (t : Table) (entries : List Entry) : Finset String :=
  listUserChains t \ (entries.map Entry.chain).toFinset

/-- `rebuild_all_rules`; `orphaned` is the set of orphaned chains in the order of its loop. -/
def rebuildAllRules (nft : FrontEnd) (entries : List Entry) (t : Table)
    (orphaned : SetOrder (orphanedChains t entries)) : Except String Table :=
  nftBatch nft (rebuildCommands entries orphaned.toList) t

/-- The two rules of a policy chain: `neg` for packets from outside of the network, `verdict` for
what becomes of them. -/
def policyLines (settings : Settings) (chain neg verdict : String) : List String :=
  let v4 := settings.wgIpv4Network
  let v6 := settings.wgIpv6Network
  [addChainLine chain, flushChainLine chain,
   addRuleLine chain s!"ip saddr {neg}{v4} ip daddr {v4} {verdict}",
   addRuleLine chain s!"ip6 saddr {neg}{v6} ip6 daddr {v6} {verdict}"]

def applyPeerToPeerPolicy (nft : FrontEnd) (settings : Settings) (enabled : Bool) (t : Table) :
    Table :=
  orKeep t (nftBatch nft
    (policyLines settings "peer_to_peer" "" (if enabled then "accept" else "drop")) t)

def applyLanToPeersPolicy (nft : FrontEnd) (settings : Settings) (enabled : Bool) (t : Table) :
    Table :=
  orKeep t (nftBatch nft
    (policyLines settings "lan_to_peers" "!= " (if enabled then "accept" else "drop")) t)

end WireGui
