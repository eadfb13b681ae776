import Mathlib.Algebra.Ring.Nat
namespace Sumidero

/-- A Rust `str`, as its characters.  Byte lengths are those of its UTF-8 form. -/
abbrev Str := List Char

namespace Config

/-! The configuration after parsing.  Addresses, networks and paths are kept as
the text they were written with. -/

structure ServerConfig where
  bind : List Str
  allow : List Str
deriving Repr, DecidableEq

inductive Profile where
  | minimal
  | balanced
  | strict
deriving Repr, DecidableEq

structure ListSource where
  name : Str
  url : Option Str
  path : Option Str
deriving Repr, DecidableEq

def hageziLight : ListSource where
  name := "hagezi-light".toList
  url := some
    "https://raw.githubusercontent.com/hagezi/dns-blocklists/main/adblock/light.txt".toList
  path := none

def hageziPro : ListSource where
  name := "hagezi-pro".toList
  url := some
    "https://raw.githubusercontent.com/hagezi/dns-blocklists/main/adblock/pro.txt".toList
  path := none

def hageziTif : ListSource where
  name := "hagezi-tif".toList
  url := some
    "https://raw.githubusercontent.com/hagezi/dns-blocklists/main/adblock/tif.txt".toList
  path := none

/-- The named lists a profile expands to. -/
def Profile.lists : Profile → List ListSource
  | .minimal => [hageziLight]
  | .balanced => [hageziPro]
  | .strict => [hageziPro, hageziTif]

structure FilteringConfig where
  profile : Option Profile
  lists : List ListSource
  listDir : Str
deriving Repr, DecidableEq

structure UpstreamsConfig where
  servers : List Str
  bootstrap : List Str
  timeoutMs : Nat
deriving Repr, DecidableEq

structure DatabaseConfig where
  path : Str
deriving Repr, DecidableEq

structure SafeSearchConfig where
  enabled : Bool
  providers : List Str
deriving Repr, DecidableEq

structure TlsConfig where
  extraRoots : List Str
deriving Repr, DecidableEq

structure CacheConfig where
  maxEntries : Nat
  serveStaleSecs : Nat
deriving Repr, DecidableEq

end Config

open Config in
structure Config where
  server : ServerConfig
  filtering : FilteringConfig
  upstreams : UpstreamsConfig
  database : DatabaseConfig
  safeSearch : SafeSearchConfig
  tls : TlsConfig
  cache : CacheConfig
deriving Repr, DecidableEq

namespace Config

/-- A list named like an earlier one takes its place. -/
def override (lists : List ListSource) (extra : ListSource) : List ListSource :=
  match lists.findIdx? fun list => list.name = extra.name with
  | some position => lists.set position extra
  | none => lists ++ [extra]

/-- The profile's lists, with the configured ones over them or after them. -/
def effectiveLists (config : Config) : List ListSource :=
  config.filtering.lists.foldl override
    ((config.filtering.profile.map Profile.lists).getD [])

end Config

end Sumidero
