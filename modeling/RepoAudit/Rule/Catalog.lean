import RepoAudit.Rule.Basic

/-!
# The catalog of rules

The tables of rules and file names that every rule set starts from.
-/

namespace RepoAudit.Catalog

open Pattern

/-! ### Character classes of the rules -/

/-- The letters and digits of ASCII. -/
def alphanumeric : CharClass := ⟨[.range 97 122, .range 65 90, .range 48 57], false⟩

/-- The capital letters and digits of ASCII. -/
def capital : CharClass := ⟨[.range 65 90, .range 48 57], false⟩

/-- The letters and digits of ASCII and the hyphen. -/
def hyphenated : CharClass := ⟨[.range 97 122, .range 65 90, .range 48 57, .range 45 45], false⟩

/-- The single and the double quote. -/
def quotes : CharClass := .ofChars ['\'', '"']

/-- Every character but the quotes. -/
def notQuotes : CharClass := .notChars ['\'', '"']

/-- Every character that can stand in the address of a server. -/
def address : CharClass := ⟨[.kind .blank false false, .range 39 39, .range 34 34], true⟩

/-- The quotes of a text literal, the backtick among them. -/
def literalQuotes : CharClass := .ofChars [Char.ofNat 96, '\'', '"']

/-- The rest of a line, as far as possible. -/
def line : Pattern := atLeast 0 .notNewline

/-! ### Secrets -/

def secretImpact : String :=
  "Exposed credentials can be used by attackers to access your systems, steal data, or " ++
    "incur charges on your accounts."

def secretFix : String :=
  "1. Immediately rotate this credential\n" ++
    "2. Move it to an environment variable\n" ++
    "3. Add the file pattern to .gitignore if appropriate\n" ++
    "4. Use git filter-branch or BFG to remove from git history"

/-- A rule about a secret. -/
def secret (name : String) (severity : Severity) (pattern : Pattern) : Rule :=
  ⟨name, pattern, severity, .security, secretImpact, secretFix⟩

/-- A name that is given a quoted value of at least `least` characters. -/
def assignment (name : Pattern) (least : Nat) : Pattern :=
  sequence [name, blanks, .one (.ofChars [':', '=']), blanks, .one quotes, atLeast least notQuotes,
    .one quotes]

/-- The rules about secrets. -/
def secrets : List Rule := [
  secret "Stripe Secret Key" .critical
    (sequence [choice [literal "sk_live_", literal "sk_test_"], atLeast 20 alphanumeric]),
  secret "AWS Access Key" .critical
    (sequence [choice [literal "AKIA", literal "ASIA"], exactly 16 capital]),
  secret "GitHub Personal Access Token" .critical
    (sequence [literal "ghp_", exactly 36 alphanumeric]),
  secret "GitHub OAuth Token" .critical (sequence [literal "gho_", exactly 36 alphanumeric]),
  secret "Slack Token" .critical
    (sequence [literal "xox", .one (.ofChars ['b', 'p', 'o', 'r', 's']), literal "-",
      atLeast 10 hyphenated]),
  secret "MongoDB Connection String" .critical
    (sequence [literal "mongodb", maybe (literal "+srv"), literal "://", atLeast 1 address]),
  secret "PostgreSQL Connection String" .critical
    (sequence [literal "postgres", maybe (literal "ql"), literal "://", atLeast 1 address]),
  secret "Hardcoded Password" .high
    (assignment (choice [anyCase "password", anyCase "passwd", anyCase "pwd"]) 4),
  secret "Hardcoded API Key" .high
    (assignment
      (choice [sequence [anyCase "api", optional (.ofChars ['_', '-']), anyCase "key"],
        anyCase "apikey"]) 8),
  secret "Hardcoded Secret/Token" .high
    (assignment (choice [anyCase "secret", anyCase "token"]) 8),
  secret "Private Key in Source" .critical
    (sequence [literal "-----BEGIN ", maybe (choice [literal "RSA ", literal "EC "]),
      literal "PRIVATE KEY-----"])]

/-! ### Security -/

/-- The rules about dangerous code. -/
def security : List Rule := [
  { name := "Potential SQL Injection (template literal)"
    pattern := sequence [choice [literal "query", literal "execute", literal "exec"], blanks,
      literal "(", blanks, .one literalQuotes, line, literal "$\x7b"]
    severity := .high
    category := .security
    impact := "User input interpolated directly into SQL queries can allow attackers to read, " ++
      "modify, or delete your entire database."
    fix := "Use parameterized queries or your ORM's query builder instead of string " ++
      "interpolation in SQL." },
  { name := "SQL Injection via String Concatenation"
    pattern := sequence [literal ".query", blanks, literal "(", blanks, .one quotes, line,
      literal "+", blanks,
      choice [literal "req.", literal "input", literal "user", literal "params", literal "body"]]
    severity := .high
    category := .security
    impact := "Concatenating user input into SQL strings allows arbitrary query execution."
    fix := "Replace string concatenation with parameterized queries using placeholders " ++
      "($1, ?, etc.)." },
  { name := "Unsafe CORS Configuration"
    pattern := sequence [literal "cors(", blanks, optional (.single '\x7b'), blanks,
      literal "origin", blanks, literal ":", blanks,
      choice [literal "true", sequence [.one quotes, literal "*", .one quotes],
        sequence [literal "[", line, literal "*", line, literal "]"]]]
    severity := .medium
    category := .security
    impact := "Allowing all origins means any website can make authenticated requests to your " ++
      "API, enabling CSRF-like attacks."
    fix := "Restrict CORS origin to your specific domain(s): cors(\x7b origin: " ++
      "'https://yourdomain.com' \x7d)" },
  { name := "Use of eval()"
    pattern := sequence [literal "eval", blanks, literal "("]
    severity := .high
    category := .security
    impact := "eval() executes arbitrary code and can be exploited for remote code execution if " ++
      "user input reaches it."
    fix := "Remove eval() and use safe alternatives like JSON.parse() for data parsing or " ++
      "Function constructors for dynamic code." },
  { name := "dangerouslySetInnerHTML Usage"
    pattern := literal "dangerouslySetInnerHTML"
    severity := .medium
    category := .security
    impact := "Rendering unescaped HTML can lead to Cross-Site Scripting (XSS) attacks if the " ++
      "content comes from user input."
    fix := "Sanitize HTML with a library like DOMPurify before rendering, or use safe React " ++
      "patterns instead." },
  { name := "Open Redirect Vulnerability"
    pattern := sequence [choice [literal "res", literal "response"], literal ".redirect", blanks,
      literal "(", blanks,
      choice [literal "req.", literal "params", literal "query", literal "body"]]
    severity := .medium
    category := .security
    impact := "Redirecting to user-supplied URLs can be used in phishing attacks to trick users " ++
      "into visiting malicious sites."
    fix := "Validate redirect URLs against a whitelist of allowed domains before redirecting." }]

/-! ### Stability -/

/-- The rules about code that fails badly. -/
def stability : List Rule := [
  { name := "Empty Catch Block"
    pattern := sequence [literal "catch", blanks, literal "(", blanks,
      maybe (choice [literal "e", literal "err", literal "error"]), blanks, literal ")", blanks,
      literal "\x7b", blanks, literal "\x7d"]
    severity := .medium
    category := .stability
    impact := "Silently swallowing errors makes debugging impossible and can hide critical " ++
      "failures in production."
    fix := "At minimum, log the error: catch(err) \x7b console.error('Context:', err); \x7d. " ++
      "Better: add proper error handling logic." },
  { name := "Console.log in Production Code"
    pattern := sequence [literal "console.log", blanks, literal "("]
    severity := .low
    category := .stability
    impact := "Console logs can leak sensitive data and clutter production output. They " ++
      "indicate a lack of structured logging."
    fix := "Replace with a structured logger (winston, pino) and remove debug console.logs " ++
      "before shipping." },
  { name := "process.exit() Call"
    pattern := sequence [literal "process.exit", blanks, literal "("]
    severity := .medium
    category := .stability
    impact := "Abrupt process termination prevents graceful shutdown, can corrupt data, and " ++
      "drops in-flight requests."
    fix := "Use proper shutdown handlers and let the process exit naturally after cleanup." }]

/-! ### Maintainability -/

/-- A comment that starts with a word, in any case. -/
def comment (word : String) : Pattern := sequence [literal "//", blanks, anyCase word]

/-- The rules about unfinished code. -/
def maintainability : List Rule := [
  { name := "TODO Comment"
    pattern := comment "TODO"
    severity := .low
    category := .maintainability
    impact := "Unresolved TODOs indicate incomplete work that may be forgotten and become " ++
      "technical debt."
    fix := "Track TODOs as issues in your project management tool and address them before " ++
      "shipping." },
  { name := "HACK/FIXME Comment"
    pattern := choice [comment "HACK", comment "FIXME", comment "XXX"]
    severity := .medium
    category := .maintainability
    impact := "These comments flag known problematic code that needs attention. Shipping with " ++
      "these is risky."
    fix := "Address the underlying issue or create a tracked ticket with a deadline." },
  { name := "TypeScript 'any' Type Usage"
    pattern := sequence [literal "any", blanks, .one (.ofChars [';', ',', ')', ']'])]
    severity := .low
    category := .maintainability
    impact := "Using 'any' defeats TypeScript's type safety, allowing bugs that the type system " ++
      "would normally catch."
    fix := "Replace 'any' with proper types. Use 'unknown' if the type is genuinely unknown and " ++
      "add type guards." }]

/-! ### Files -/

/-- The files that should never be committed. -/
def sensitiveFiles : List SensitiveFile := [
  ⟨".env", .critical, ".env File Committed to Repository"⟩,
  ⟨".env.local", .critical, ".env.local File Committed"⟩,
  ⟨".env.production", .critical, ".env.production File Committed"⟩,
  ⟨".env.development", .high, ".env.development File Committed"⟩,
  ⟨"id_rsa", .critical, "SSH Private Key Committed"⟩,
  ⟨"id_ed25519", .critical, "SSH Private Key Committed"⟩,
  ⟨".npmrc", .high, ".npmrc File May Contain Auth Token"⟩,
  ⟨"firebase-adminsdk", .critical, "Firebase Admin SDK Credentials File"⟩,
  ⟨"service-account", .critical, "GCP Service Account Key File"⟩,
  ⟨"credentials.json", .critical, "Credentials File Committed"⟩]

/-- The files whose presence is reported. -/
def importantFiles : List String := [
  "package.json", "package-lock.json", "yarn.lock", "pnpm-lock.yaml", ".gitignore",
  "requirements.txt", "Pipfile", "pyproject.toml", "Gemfile", "go.mod", "Cargo.toml",
  "docker-compose.yml", "Dockerfile", ".github/workflows", "tsconfig.json", "next.config.js",
  "next.config.ts", "vite.config.ts", "vite.config.js"]

/-- The extensions of the files that are scanned. -/
def scannableExtensions : List String := [
  ".ts", ".tsx", ".js", ".jsx", ".mjs", ".cjs", ".py", ".rb", ".go", ".rs", ".java", ".env", ".yml",
  ".yaml", ".json", ".toml", ".sql", ".graphql", ".gql", ".php", ".cs", ".swift", ".kt"]

/-- The files that fix the versions of dependencies. -/
def lockfiles : List String := ["package-lock.json", "yarn.lock", "pnpm-lock.yaml"]

/-- The packages that check code style. -/
def linterPackages : List String := ["eslint", "biome", "@biomejs/biome"]

/-- The package that checks types. -/
def typecheckPackage : String := "typescript"

/-- The file that configures the type checker. -/
def typecheckConfig : String := "tsconfig.json"

end RepoAudit.Catalog
