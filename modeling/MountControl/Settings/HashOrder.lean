import MountControl.Settings.Value

/-!
The order in which tables are gone through. The tables of a file, the variables of the environment
and the settings that they make up are held in hash maps, which hand out their entries in any order:
another one for each map, and in each run.
-/

namespace MountControl

open SettingValue (Entries)

/-- The orders of one run: of the tables of the file and of those that are copied, by the keys that
lead to them, of the variables and of the settings. -/
structure HashOrder where
  file : List String → Entries → Entries
  environment : Entries → Entries
  copy : List String → Entries → Entries
  settings : Entries → Entries
  file_perm : ∀ keys es, (file keys es).Perm es
  environment_perm : ∀ es, (environment es).Perm es
  copy_perm : ∀ keys es, (copy keys es).Perm es
  settings_perm : ∀ es, (settings es).Perm es

namespace HashOrder

def asListed : HashOrder where
  file _ es := es
  environment es := es
  copy _ es := es
  settings es := es
  file_perm _ es := .refl es
  environment_perm es := .refl es
  copy_perm _ es := .refl es
  settings_perm es := .refl es

/-- The same run, with the tables that are copied in the place of the file's. -/
def copying (order : HashOrder) : HashOrder where
  file := order.copy
  environment := order.environment
  copy := order.copy
  settings := order.settings
  file_perm := order.copy_perm
  environment_perm := order.environment_perm
  copy_perm := order.copy_perm
  settings_perm := order.settings_perm

end HashOrder

namespace SettingValue

mutual

/-- A value with the entries of its tables put in order. Tables in lists are never gone through. -/
def arranged (order : List String → Entries → Entries) (keys : List String) :
    SettingValue → SettingValue
  | .table es => .table (order keys (arrangedEach order keys es))
  | value => value

def arrangedEach (order : List String → Entries → Entries) (keys : List String) :
    List (String × SettingValue) → Entries
  | [] => []
  | (key, value) :: rest =>
    (key, arranged order (keys ++ [key]) value) :: arrangedEach order keys rest

end

end SettingValue

def HashOrder.arrange (order : HashOrder) (es : Entries) : Entries :=
  order.file [] (SettingValue.arrangedEach order.file [] es)

end MountControl
