import Neaten.Text.Basic

/-! # The upload page

    The page that the server shows.  It sends the chosen file to the server and
    shows each file's text before and after side by side, with links to
    download them, and the README of an archive.  Answers to earlier uploads
    that come late are left out. -/

namespace Neaten.Server

/-- The lines of the page, the last of them empty. -/
def pageLines : List String :=
  ["<!DOCTYPE html>",
   "<html lang=\"en\">",
   "<head>",
   "<meta charset=\"utf-8\">",
   "<title>codetidy</title>",
   "<style>",
   "  body \x7b font-family: system-ui, sans-serif; margin: 2rem auto; max-width: 72rem; color: #222; \x7d",
   "  #drop \x7b border: 2px dashed #888; border-radius: 8px; padding: 2rem; text-align: center; \x7d",
   "  #drop.over \x7b background: #eef6ff; border-color: #3778c2; \x7d",
   "  #status \x7b margin: 1rem 0; min-height: 1.5em; \x7d",
   "  #status.error \x7b color: #b00020; \x7d",
   "  .file \x7b border: 1px solid #ddd; border-radius: 6px; margin: 1rem 0; \x7d",
   "  .file h3 \x7b margin: 0; padding: .5rem 1rem; background: #f4f4f4; font-size: 1rem; \x7d",
   "  .panes \x7b display: grid; grid-template-columns: 1fr 1fr; \x7d",
   "  pre \x7b margin: 0; padding: .75rem 1rem; overflow: auto; max-height: 24rem; font-size: .85rem; \x7d",
   "  .panes pre + pre \x7b border-left: 1px solid #ddd; \x7d",
   "  a.button \x7b display: inline-block; margin: .5rem 1rem; \x7d",
   "</style>",
   "</head>",
   "<body>",
   "<h1>codetidy</h1>",
   "<p>Drop a source file or a ZIP archive. Archives also get a generated README.</p>",
   "<div id=\"drop\">",
   "  <p>Drag a file here, or</p>",
   "  <input type=\"file\" id=\"picker\">",
   "</div>",
   "<div id=\"status\"></div>",
   "<section id=\"readme\" hidden>",
   "  <h2>README.md</h2>",
   "  <a class=\"button\" href=\"/download/readme\">Download README.md</a>",
   "  <pre id=\"readme-text\"></pre>",
   "</section>",
   "<section id=\"files\"></section>",
   "<script>",
   "  let latestRequest = 0;",
   "  const drop = document.getElementById(\"drop\");",
   "  const picker = document.getElementById(\"picker\");",
   "  const status = document.getElementById(\"status\");",
   "",
   "  function setStatus(text, isError) \x7b",
   "    status.textContent = text;",
   "    status.className = isError ? \"error\" : \"\";",
   "  \x7d",
   "",
   "  function el(tag, text) \x7b",
   "    const node = document.createElement(tag);",
   "    if (text !== undefined) node.textContent = text;",
   "    return node;",
   "  \x7d",
   "",
   "  function render(summary) \x7b",
   "    const readme = document.getElementById(\"readme\");",
   "    readme.hidden = !summary.readme;",
   "    document.getElementById(\"readme-text\").textContent = summary.readme || \"\";",
   "",
   "    const files = document.getElementById(\"files\");",
   "    files.replaceChildren();",
   "    summary.files.forEach((file, index) => \x7b",
   "      const box = el(\"div\");",
   "      box.className = \"file\";",
   "      box.appendChild(el(\"h3\", file.path));",
   "      const panes = el(\"div\");",
   "      panes.className = \"panes\";",
   "      panes.appendChild(el(\"pre\", file.content));",
   "      panes.appendChild(el(\"pre\", file.formatted ?? file.content));",
   "      box.appendChild(panes);",
   "      const link = el(\"a\", \"Download formatted_\" + file.name);",
   "      link.className = \"button\";",
   "      link.href = \"/download/formatted/\" + index;",
   "      box.appendChild(link);",
   "      files.appendChild(box);",
   "    \x7d);",
   "  \x7d",
   "",
   "  async function upload(file) \x7b",
   "    const request = ++latestRequest;",
   "    setStatus(\"Processing \" + file.name + \"...\", false);",
   "    try \x7b",
   "      const response = await fetch(\"/api/process?name=\" + encodeURIComponent(file.name), \x7b",
   "        method: \"POST\",",
   "        body: file,",
   "      \x7d);",
   "      const body = await response.json();",
   "      if (request !== latestRequest) return;",
   "      if (!response.ok) \x7b",
   "        setStatus(body.error || \"Error processing file\", true);",
   "        document.getElementById(\"readme\").hidden = true;",
   "        document.getElementById(\"files\").replaceChildren();",
   "        return;",
   "      \x7d",
   "      setStatus(\"Processed \" + body.files.length + \" file(s) from \" + body.upload_name + \".\", false);",
   "      render(body);",
   "    \x7d catch (err) \x7b",
   "      if (request === latestRequest) setStatus(\"Error processing file\", true);",
   "    \x7d",
   "  \x7d",
   "",
   "  picker.addEventListener(\"change\", () => \x7b",
   "    if (picker.files.length > 0) upload(picker.files[0]);",
   "  \x7d);",
   "  drop.addEventListener(\"dragover\", (event) => \x7b",
   "    event.preventDefault();",
   "    drop.classList.add(\"over\");",
   "  \x7d);",
   "  drop.addEventListener(\"dragleave\", () => drop.classList.remove(\"over\"));",
   "  drop.addEventListener(\"drop\", (event) => \x7b",
   "    event.preventDefault();",
   "    drop.classList.remove(\"over\");",
   "    if (event.dataTransfer.files.length > 0) upload(event.dataTransfer.files[0]);",
   "  \x7d);",
   "</script>",
   "</body>",
   "</html>",
   ""]

/-- The page. -/
def page : Text := ['\n'].intercalate (pageLines.map String.toList)

end Neaten.Server
