import InlineCompletion.Settings.Value

/-!
# Settings out of the box

What holds where the user's file says nothing.
-/

namespace InlineCompletion
namespace Settings

def usualLanguages : Members :=
  [
    (.str ".py", .str "python"),
    (.str ".pyi", .str "python"),
    (.str ".js", .str "javascript"),
    (.str ".jsx", .str "javascriptreact"),
    (.str ".ts", .str "typescript"),
    (.str ".tsx", .str "typescriptreact"),
    (.str ".c", .str "c"),
    (.str ".h", .str "c"),
    (.str ".cc", .str "cpp"),
    (.str ".cpp", .str "cpp"),
    (.str ".hpp", .str "cpp"),
    (.str ".go", .str "go"),
    (.str ".java", .str "java"),
    (.str ".rs", .str "rust"),
    (.str ".rb", .str "ruby"),
    (.str ".sh", .str "shellscript"),
    (.str ".el", .str "emacs-lisp"),
    (.str ".md", .str "markdown"),
    (.str ".json", .str "json"),
    (.str ".yaml", .str "yaml"),
    (.str ".yml", .str "yaml")
  ]

def usualServer : Members :=
  [ (.str "command", .str "npx"),
    (.str "args", .seq [.str "tabby-agent", .str "--lsp", .str "--stdio"]) ]

def defaults : Members :=
  [ (.str "tabby", .map
      [ (.str "server", .map usualServer),
        (.str "sync_idle_ms", .int 200),
        (.str "trigger_idle_ms", .int 500),
        (.str "auto_trigger", .bool true),
        (.str "language_map", .map usualLanguages) ]),
    (.str "logging", .map [(.str "level", .str "INFO")]) ]

end Settings
end InlineCompletion
