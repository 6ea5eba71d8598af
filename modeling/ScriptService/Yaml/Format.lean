import ScriptService.Environment
import ScriptService.Yaml.Reading
import ScriptService.Yaml.Writer

/-!
# YAML files
-/

namespace ScriptService.Yaml

/-- YAML as it is read and written here. -/
def format : ValueFormat := ⟨read, write⟩

end ScriptService.Yaml
