/-!
# The look of a page

The style sheet that every page carries.

It is the text that the renderer of pages puts into the head of every page.
-/

namespace PhpHandbook.Handbook

/-- The lines of the style sheet. -/
def styleLines : List String := [
    "",
    ":root \x7b",
    "  --bg-color: #fdfdfb;",
    "  --text-color: #222;",
    "  --accent-color: #4f5b93;",
    "  --code-bg: #f2f2ee;",
    "  --sidebar-bg: #eef0f6;",
    "  --border-color: #d8d8d0;",
    "\x7d",
    "* \x7b box-sizing: border-box; margin: 0; padding: 0; \x7d",
    "body \x7b",
    "  font-family: -apple-system, BlinkMacSystemFont, 'Segoe UI', Roboto, sans-serif;",
    "  background-color: var(--bg-color);",
    "  color: var(--text-color);",
    "  line-height: 1.6;",
    "  display: flex;",
    "\x7d",
    ".sidebar \x7b",
    "  width: 280px;",
    "  background-color: var(--sidebar-bg);",
    "  height: 100vh;",
    "  position: fixed;",
    "  overflow-y: auto;",
    "  border-right: 1px solid var(--border-color);",
    "  padding-bottom: 2rem;",
    "\x7d",
    ".sidebar-header \x7b padding: 1.25rem; border-bottom: 1px solid var(--border-color); \x7d",
    ".sidebar-header a \x7b color: var(--accent-color); text-decoration: none; \x7d",
    ".sidebar ul \x7b list-style: none; padding-left: 1rem; \x7d",
    ".sidebar li \x7b font-size: 0.9rem; \x7d",
    ".sidebar li.namespace \x7b color: #777; margin-top: 0.5rem; \x7d",
    ".sidebar li.current > a \x7b font-weight: bold; \x7d",
    ".sidebar a \x7b color: var(--text-color); text-decoration: none; \x7d",
    ".content \x7b margin-left: 280px; padding: 2rem 3rem; max-width: 960px; \x7d",
    "header .namespace \x7b color: #777; font-family: monospace; \x7d",
    "header h1 \x7b font-size: 2rem; color: var(--accent-color); margin-bottom: 1rem; \x7d",
    ".kind \x7b color: #777; font-weight: normal; font-size: 0.8em; \x7d",
    ".template \x7b font-style: italic; \x7d",
    ".hierarchy dt \x7b font-weight: bold; float: left; width: 7rem; \x7d",
    ".hierarchy dd \x7b margin-left: 7rem; \x7d",
    "section \x7b margin: 2rem 0; \x7d",
    "section h2 \x7b",
    "  font-size: 1.4rem;",
    "  color: var(--accent-color);",
    "  border-bottom: 2px solid var(--border-color);",
    "  padding-bottom: 0.4rem;",
    "  margin-bottom: 1rem;",
    "\x7d",
    ".item \x7b margin: 1.25rem 0; padding: 1rem; background: var(--code-bg); " ++
      "border-radius: 6px; \x7d",
    ".signature \x7b font-family: 'Fira Code', Consolas, monospace; font-size: 0.9rem; " ++
      "overflow-x: auto; \x7d",
    ".origin \x7b color: #777; font-size: 0.85rem; \x7d",
    ".deprecated \x7b color: #a33; \x7d",
    ".description p \x7b margin: 0.5rem 0; \x7d",
    ".params h4, .returns h4, .throws h4 \x7b font-size: 0.9rem; color: #777; " ++
      "margin-top: 0.5rem; \x7d",
    ".params ul, .throws ul \x7b list-style: none; padding-left: 1rem; \x7d",
    ".structures dd \x7b color: #555; margin: 0 0 0.5rem 1rem; \x7d",
    "a \x7b color: var(--accent-color); \x7d",
    "footer \x7b position: fixed; bottom: 0; right: 0; padding: 0.5rem 1rem; " ++
      "font-size: 0.75rem; color: #888; \x7d",
    ""]

/-- The style sheet. -/
def styleSheet : String :=
  "\n".intercalate styleLines

end PhpHandbook.Handbook
