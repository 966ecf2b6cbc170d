import TestPlan.Text.Blank
import TestPlan.Text.Split
import TestPlan.Value.Basic

/-!
# Tag filters

A filter is written as groups of tags: `|` separates groups, `,` separates the tags of a group, and
blanks around a tag do not count. A list of tags passes when some group has all of its tags among them.
A definition without a tag list passes every filter; one with an empty list passes none.
-/

namespace TestPlan

/-- The groups of a filter. -/
abbrev TagFilter := List (List Text)

/-- A tag that is a container and cannot be compared with others. -/
structure TagFault where
  kind : String
  deriving DecidableEq

namespace TagFilter

/-- The tags of one written group. -/
def group (text : Text) : List Text := (Text.split ',' text).map Text.trim

/-- The groups of a written filter. -/
def ofText (text : Text) : TagFilter := (Text.split '|' text).map group

/-- The filter that a setting stands for; no setting and the empty text stand for none. -/
def ofSetting? (setting : Option Text) : Option TagFilter :=
  match setting with
  | none => none
  | some text => if text.isEmpty then none else some (ofText text)

/-- Whether a non-empty list of tags has all tags of some group. -/
def admits (filter : TagFilter) (tags : List Value) : Bool :=
  !tags.isEmpty && filter.any fun group => group.all fun tag => (tags.filterMap Value.text?).contains tag

/-- The first tag that is a container. -/
def containerTag? : List Value → Option TagFault
  | [] => none
  | tag :: rest =>
    match tag.view with
    | .scalar _ => containerTag? rest
    | _ => some ⟨tag.kindName⟩

/-- Whether a tag list passes a filter setting. Containers among the tags are noticed only when there is
a filter to compare them with. -/
def passes (setting : Option Text) (tags : Option (List Value)) : Except TagFault Bool :=
  match ofSetting? setting, tags with
  | some filter, some tags =>
    match containerTag? tags with
    | some fault => .error fault
    | none => .ok (filter.admits tags)
  | _, _ => .ok true

end TagFilter
end TestPlan
