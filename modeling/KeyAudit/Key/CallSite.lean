import KeyAudit.Class.Member
import KeyAudit.Text.Blank

namespace KeyAudit

/-!
# Call sites that take message keys

A call site says which argument of which method is a message key.  Next to the
lookups of the message service, which are always known, wrappers are named by
their classes and methods.
-/

/-- The calls of a method of which one argument is a message key. -/
structure CallSite where
  /-- The class with slashes between the parts of its name. -/
  owner : Text
  name : Text
  /-- How the descriptor begins; nothing stands for every descriptor. -/
  descriptorStart : Text
  /-- The position of the argument. -/
  argument : Int
  deriving Repr, DecidableEq

namespace CallSite

/-- Whether a call of a member is at this call site. -/
def accepts (site : CallSite) (member : Member) : Bool :=
  member.owner == site.owner && member.name == site.name &&
    member.descriptor.startsWith site.descriptorStart

/-- The class of the message service. -/
def messageService : Text := "de/t14d3/rapunzellib/message/MessageService"

/-- The lookups of the message service, which take the key as their first argument. -/
def builtin : List CallSite :=
  (["component", "raw", "contains"] : List Text).map fun name =>
    ⟨messageService, name, "(Ljava/lang/String;", 0⟩

/-- The class name with slashes in place of dots. -/
def slashedName (className : Text) : Text :=
  className.trim.substitute '.' '/'

/-- All methods of all classes given by name; blank names do not count. -/
def wrappers (owners methods : List Text) : List CallSite :=
  let present (names : List Text) := names.filter fun name => !name.isBlank
  let owners := Text.sortedDistinct ((present owners).map slashedName)
  let methods := Text.sortedDistinct ((present methods).map Text.trim)
  owners.flatMap fun owner => methods.map fun method => ⟨owner, method, [], 0⟩

/-- The built-in call sites and the wrappers. -/
def ofAllowLists (owners methods : List Text) : List CallSite :=
  builtin ++ wrappers owners methods

end CallSite

/-- Call sites in groups of one class and method, in the order of their first members. -/
structure CallSiteTable where
  groups : List ((Text × Text) × List CallSite)
  deriving Repr, DecidableEq

namespace CallSiteTable

/-- A table without call sites. -/
def empty : CallSiteTable := ⟨[]⟩

/-- Add a call site to its group unless it is there already. -/
def insertInto (site : CallSite) :
    List ((Text × Text) × List CallSite) → List ((Text × Text) × List CallSite)
  | [] => [((site.owner, site.name), [site])]
  | (target, sites) :: rest =>
      if target = (site.owner, site.name) then
        (target, if sites.contains site then sites else sites ++ [site]) :: rest
      else
        (target, sites) :: insertInto site rest

/-- Add a call site. -/
def insert (table : CallSiteTable) (site : CallSite) : CallSiteTable :=
  ⟨insertInto site table.groups⟩

/-- The table of call sites in order. -/
def ofList (sites : List CallSite) : CallSiteTable :=
  sites.foldl insert empty

/-- The call sites group by group. -/
def toList (table : CallSiteTable) : List CallSite :=
  table.groups.flatMap Prod.snd

/-- The first call site of a call of a member. -/
def find? (table : CallSiteTable) (member : Member) : Option CallSite :=
  match table.groups.lookup (member.owner, member.name) with
  | none => none
  | some sites => sites.find? fun site => site.accepts member

end CallSiteTable

end KeyAudit
